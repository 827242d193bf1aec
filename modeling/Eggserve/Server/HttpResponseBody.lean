import Eggserve.Primitives.Canonical.Response
import Eggserve.Primitives.ResponseStream
import Eggserve.Primitives.TrailerDeclaration
import Eggserve.Server.HttpRequestBody
import Eggserve.Server.TrailerBridge

/-! The way of an `http_body` body into the canonical pipeline. Its data becomes
a stream and its trailers a future; the two share a slot. -/
namespace Eggserve.Server
open Rust Transition Eggserve.Primitives

/-- What a ready poll of an ecosystem body tells. -/
abbrev BodyItem (ε : Type) := Option (Except ε HttpFrame)

/-- An ecosystem body. `outside` is what happens to it between two polls. -/
structure HttpBody (β ε δ : Type) where
  pollFrame : β → Option (BodyItem ε) × β
  outside : δ → β → β
  isEndStream : β → Bool
  sizeHint : β → SizeHint
  display : ε → Str

/-- What a ready poll of the canonical stream tells. -/
abbrev StreamItem := Option (Except Str (List UInt8))

def headerMapToBlock (map : HyperHeaders) : Except InteropError HeaderBlock :=
  map.mapM fun field => do
    let name ← (HeaderName.new field.name).mapError fun _ => InteropError.invalidHeader
    let value ← (HeaderValue.fromBytes field.value).mapError fun _ => InteropError.invalidHeader
    return ⟨name, value⟩

def invalidResponseTrailers : Str := "invalid response trailers"

/-- What is stored of a trailers frame. -/
def readTrailers (map : HyperHeaders) : Except Str (Option Trailers) := do
  let block ← (headerMapToBlock map).mapError fun _ => invalidResponseTrailers
  let trailers ← (Trailers.withLimits block {}).mapError fun _ => invalidResponseTrailers
  return if trailers.block.isEmpty then none else some trailers

/-! The stream. -/

structure HttpBodyDataStream (β : Type) where
  body : β
  slot : Option (Except Str (Option Trailers))
  trailersEmitted : Bool

/-- The outcome of one turn of the poll loop. -/
inductive Turn where
  | skip
  | pending
  | ready (item : StreamItem)
  deriving DecidableEq

namespace HttpBodyDataStream

variable {β ε δ : Type} (B : HttpBody β ε δ)

def failure (e : ε) : Str := "response body failed: ".toList ++ B.display e

/-- What becomes of the stream with an answer of the body. -/
def take (stream : HttpBodyDataStream β) (body : β) :
    BodyItem ε → Turn × HttpBodyDataStream β
  | some (.ok (.data bytes)) =>
      (if bytes = [] then .skip else .ready (some (.ok bytes)), { stream with body })
  | some (.ok (.trailers map)) =>
      (.ready none, { body, slot := some (readTrailers map), trailersEmitted := true })
  | some (.error e) =>
      (.ready (some (.error (failure B e))), { stream with body, slot := some (.error (failure B e)) })
  | none =>
      (.ready none,
        { stream with
          body
          slot := if stream.trailersEmitted = false ∧ stream.slot = none then some (.ok none)
            else stream.slot })

/-- One turn of the loop. -/
def turn (stream : HttpBodyDataStream β) : Turn × HttpBodyDataStream β :=
  match B.pollFrame stream.body with
  | (none, body) => (.pending, { stream with body })
  | (some item, body) => stream.take B body item

/-- The loop: so many empty frames are skipped, one more makes it yield. -/
def pollLoop : Nat → HttpBodyDataStream β → Option StreamItem × HttpBodyDataStream β
  | left, stream =>
      match stream.turn B, left with
      | (.ready item, stream), _ => (some item, stream)
      | (.pending, stream), _ => (none, stream)
      | (.skip, stream), 0 => (none, stream)
      | (.skip, stream), left + 1 => pollLoop left stream

def maxEmptyRuns : Nat := 32

def pollNext (stream : HttpBodyDataStream β) : Option StreamItem × HttpBodyDataStream β :=
  stream.pollLoop B maxEmptyRuns

/-- What holds while empty frames are skipped, and what each end of the loop makes
of it. -/
theorem pollLoop_rule {I : HttpBodyDataStream β → Prop}
    {Q : Option StreamItem × HttpBodyDataStream β → Prop}
    (hReady : ∀ stream item after, I stream → stream.turn B = (.ready item, after) →
      Q (some item, after))
    (hPending : ∀ stream after, I stream → stream.turn B = (.pending, after) → Q (none, after))
    (hSkip : ∀ stream after, I stream → stream.turn B = (.skip, after) → I after ∧ Q (none, after))
    (left : Nat) {stream : HttpBodyDataStream β} (h : I stream) : Q (stream.pollLoop B left) := by
  induction left generalizing stream with
  | zero =>
      unfold pollLoop
      cases hTurn : stream.turn B with
      | mk outcome after =>
          cases outcome with
          | skip => exact (hSkip stream after h hTurn).2
          | pending => exact hPending stream after h hTurn
          | ready item => exact hReady stream item after h hTurn
  | succ left ih =>
      unfold pollLoop
      cases hTurn : stream.turn B with
      | mk outcome after =>
          cases outcome with
          | skip => exact ih (hSkip stream after h hTurn).1
          | pending => exact hPending stream after h hTurn
          | ready item => exact hReady stream item after h hTurn

/-- The trailer future, polled once. -/
def pollTrailers (stream : HttpBodyDataStream β) :
    Except Str (Option Trailers) × HttpBodyDataStream β :=
  (stream.slot.getD (.ok none), { stream with slot := none })

end HttpBodyDataStream

/-! The declaration of trailers. -/

/-- The first name of each spelling stays. -/
def uniqueNames (names : List HeaderName) : List HeaderName :=
  names.foldl (fun unique name => if unique.any (·.is name.text) then unique else unique ++ [name])
    []

/-- `validate_names`, without its errors. -/
def validateNames (names : List HeaderName) : Option TrailerDeclaration :=
  let unique := uniqueNames names
  if h : unique ≠ [] ∧ ∀ name ∈ unique, isForbiddenTrailerField name.text = false then
    if (names.all fun name => !isForbiddenTrailerField name.text) && unique.length ≤ 32 &&
        (unique.map fun name => (utf8 name.text).length).sum ≤ 8 * 1024 then
      some ⟨unique, h.1, h.2⟩
    else none
  else none

/-- `parse_header_value`, without its errors. -/
def parseHeaderValue (value : Str) : Option TrailerDeclaration := do
  let parts := ((value.splitOn ',').map trim).filter fun part => !part.isEmpty
  let names ← parts.mapM fun part => (HeaderName.new part).toOption
  validateNames names

theorem uniqueNames_eq (names : List HeaderName) :
    uniqueNames names = names.eraseDupsBy fun a b => a.is b.text := by
  have hLoop (unique : List HeaderName) :
      names.foldl (fun unique name =>
          if unique.any (·.is name.text) then unique else unique ++ [name]) unique =
        unique ++ (names.filter fun name => unique.any (·.is name.text) = false).eraseDupsBy
          fun a b => a.is b.text := by
    induction names generalizing unique with
    | nil => exact (List.append_nil _).symm
    | cons name names ih =>
        have hSeen (other : HeaderName) : (unique ++ [name]).any (·.is other.text) =
            (unique.any (·.is other.text) || other.is name.text) := by
          rw [List.any_append, List.any_cons, List.any_nil, Bool.or_false, TrailerDeclaration.is_comm]
        have hStep := @eraseDupsBy_filter_cons _ (fun a b : HeaderName => a.is b.text)
          (fun other => unique.any (·.is other.text)) name names
        rw [List.foldl_cons, hStep]
        split_ifs with hName
        · exact ih unique
        · rw [ih, List.append_assoc, List.singleton_append]
          simp only [hSeen]
  rw [uniqueNames, hLoop, List.nil_append]
  simp

/-- The declaration is the one that the constructor builds. -/
theorem validateNames_eq (names : List HeaderName) :
    validateNames names = (TrailerDeclaration.validateNames names).toOption := by
  refine Option.ext fun declaration => ?_
  have hOk : (TrailerDeclaration.validateNames names).toOption = some declaration ↔
      TrailerDeclaration.validateNames names = .ok declaration := by
    cases TrailerDeclaration.validateNames names <;> simp [Except.toOption]
  obtain ⟨kept, hKept, hFree⟩ := declaration
  rw [hOk, TrailerDeclaration.validateNames_eq_ok, ← uniqueNames_eq, validateNames]
  dsimp only
  split_ifs with hUnique hBounds
  · simp only [Bool.and_eq_true, List.all_eq_true, Bool.not_eq_true', decide_eq_true_eq] at hBounds
    rw [Option.some.injEq, TrailerDeclaration.mk.injEq]
    constructor
    · rintro rfl
      refine ⟨?_, hBounds.1.1, rfl, hBounds.1.2, hBounds.2⟩
      rintro rfl
      exact hUnique.1 rfl
    · exact fun h => h.2.2.1.symm
  · refine ⟨(fun h => by cases h), ?_⟩
    rintro ⟨-, hAllowed, rfl, hCount, hBytes⟩
    refine absurd ?_ hBounds
    simp only [Bool.and_eq_true, List.all_eq_true, Bool.not_eq_true', decide_eq_true_eq]
    exact ⟨⟨hAllowed, hCount⟩, hBytes⟩
  · refine ⟨(fun h => by cases h), ?_⟩
    rintro ⟨-, -, rfl, -, -⟩
    exact absurd ⟨hKept, hFree⟩ hUnique

theorem parseHeaderValue_eq (value : Str) :
    parseHeaderValue value = (TrailerDeclaration.parseHeaderValue value).toOption := by
  have hParts : ∀ part ∈ ((value.splitOn ',').map trim).filter fun part => !part.isEmpty,
      (HeaderName.new part).toOption = (TrailerDeclaration.parseName part).toOption := by
    intro part hPart
    obtain ⟨hMem, hNonempty⟩ := List.mem_filter.mp hPart
    obtain ⟨piece, -, rfl⟩ := List.mem_map.mp hMem
    have hText : trim piece ≠ [] := by simpa using hNonempty
    rw [TrailerDeclaration.parseName, trim_trim]
    simp only [failIf, if_neg hText]
    cases HeaderName.new (trim piece) <;> rfl
  unfold parseHeaderValue TrailerDeclaration.parseHeaderValue TrailerDeclaration.fromNames
  dsimp only
  rw [mapM_toOption hParts]
  generalize ((value.splitOn ',').map trim).filter (fun part => !part.isEmpty) = parts
  cases parts with
  | nil => exact (validateNames_eq []).trans rfl
  | cons part parts =>
      have hSome : failIf (part :: parts = []) (TrailerDeclarationError.invalidLimits
          nonEmptyMessage) = .ok () := if_neg (List.cons_ne_nil _ _)
      rw [hSome]
      cases (part :: parts).mapM TrailerDeclaration.parseName with
      | error e => rfl
      | ok names => exact validateNames_eq names

/-! The response. -/

inductive HttpResponseError where
  | invalidStatus (code : Nat)
  | construction (error : ResponseConstructionError)
  deriving DecidableEq

/-- The body of the response. A stream comes with what is declared of it. -/
inductive BridgedBody where
  | empty
  | stream (knownLength : Option Nat) (declaration : Option TrailerDeclaration)
  deriving DecidableEq

def BridgedBody.bodyLength : BridgedBody → BodyLength
  | empty => .known 0
  | stream (some length) _ => .known length
  | stream none _ => .unknown

structure BridgedResponse where
  status : StatusCode
  headers : HeaderBlock
  body : BridgedBody
  deriving DecidableEq

def invalidHeaderValue : HttpResponseError := .construction (.invalidHeader .invalidValue)

/-- An ecosystem `Trailer` field asks for a declaration. -/
def requestedDeclaration (headers : HeaderBlock) :
    Except HttpResponseError (Option TrailerDeclaration) :=
  let values := (headers.filter (·.name.is "trailer")).filterMap (·.value.toStr)
  if values = [] then .ok none
  else
    match parseHeaderValue (List.intercalate [','] values) with
    | some declaration => .ok (some declaration)
    | none => .error invalidHeaderValue

/-- The fields that the runtime owns are left out. -/
def withoutFraming (headers : HeaderBlock) : HeaderBlock :=
  headers.filter fun field => !field.name.is "content-length" &&
    !field.name.is "transfer-encoding" && !field.name.is "trailer"

def statusOf (code : Nat) : Except HttpResponseError StatusCode :=
  if h : 100 ≤ code ∧ code ≤ 599 then .ok ⟨code, h⟩ else .error (.invalidStatus code)

def responseFromHttpBody {β ε δ : Type} (B : HttpBody β ε δ) (code : Nat) (headers : HyperHeaders)
    (body : β) : Except HttpResponseError BridgedResponse := do
  let status ← statusOf code
  let block ← (headerMapToBlock headers).mapError fun _ => invalidHeaderValue
  let declaration ← requestedDeclaration block
  -- An empty body stays empty, so that its framing is exact.
  if B.isEndStream body then return ⟨status, withoutFraming block, .empty⟩
  return ⟨status, withoutFraming block, .stream (B.sizeHint body).exact declaration⟩

/-! Runs. -/

/-- The body with all that it has told. -/
def HttpBody.recorded {β ε δ : Type} (B : HttpBody β ε δ) : HttpBody (β × List (BodyItem ε)) ε δ where
  pollFrame x := ((B.pollFrame x.1).1, (B.pollFrame x.1).2, x.2 ++ (B.pollFrame x.1).1.toList)
  outside d x := (B.outside d x.1, x.2)
  isEndStream x := B.isEndStream x.1
  sizeHint x := B.sizeHint x.1
  display := B.display

/-- The stream, what it has told, and what the trailer future came to. -/
structure BridgeRun (β ε : Type) where
  stream : HttpBodyDataStream (β × List (BodyItem ε))
  items : List StreamItem
  trailers : Option (Except Str (Option Trailers))

inductive BridgeOp (δ : Type) where
  | pollNext
  | pollTrailers
  | outside (d : δ)

namespace BridgeRun

variable {β ε δ : Type}

def start (body : β) : BridgeRun β ε := ⟨⟨(body, []), none, false⟩, [], none⟩

def body (s : BridgeRun β ε) : β := s.stream.body.1

/-- What the body has told. -/
def answers (s : BridgeRun β ε) : List (BodyItem ε) := s.stream.body.2

/-- The future is polled once, after the data has ended. -/
def step (B : HttpBody β ε δ) (s : BridgeRun β ε) : BridgeOp δ → Option (BridgeRun β ε)
  | .pollNext =>
      some { s with
        stream := (s.stream.pollNext B.recorded).2
        items := s.items ++ (s.stream.pollNext B.recorded).1.toList }
  | .pollTrailers =>
      if none ∈ s.items ∧ s.trailers.isNone = true then
        some { s with stream := s.stream.pollTrailers.2, trailers := some s.stream.pollTrailers.1 }
      else none
  | .outside d =>
      some { s with stream := { s.stream with body := B.recorded.outside d s.stream.body } }

def machine (B : HttpBody β ε δ) (Start : β → Prop) : Machine (BridgeRun β ε) (BridgeOp δ) where
  Initial s := ∃ body, Start body ∧ s = start body
  step := step B

end BridgeRun

/-! What a body tells. -/

section Answers

variable {β ε δ : Type}

def isData : BodyItem ε → Bool
  | some (.ok (.data _)) => true
  | _ => false

/-- The answers from the first one that is not data. -/
def afterData (answers : List (BodyItem ε)) : List (BodyItem ε) := answers.dropWhile isData

/-- Data, then at most one trailers frame, then the end for ever; or an error in
the place of any of these that comes before the end. -/
def Shaped (answers : List (BodyItem ε)) : Prop :=
  match afterData answers with
  | [] => True
  | some (.error _) :: _ => True
  | _ :: rest => ∀ answer ∈ rest, answer = none

/-- What the stream makes of an answer of the body. -/
def mirror (B : HttpBody β ε δ) : BodyItem ε → List StreamItem
  | some (.ok (.data bytes)) => if bytes = [] then [] else [some (.ok bytes)]
  | some (.ok (.trailers _)) => [none]
  | some (.error e) => [some (.error (HttpBodyDataStream.failure B e))]
  | none => [none]

/-- What the slot holds of the first answer behind the data. -/
def endOf : BodyItem ε → Except Str (Option Trailers)
  | some (.ok (.trailers map)) => readTrailers map
  | _ => .ok none

def isTrailers : BodyItem ε → Bool
  | some (.ok (.trailers _)) => true
  | _ => false

theorem afterData_append (answers : List (BodyItem ε)) (item : BodyItem ε) :
    afterData (answers ++ [item]) =
      if afterData answers = [] then (if isData item then [] else [item])
      else afterData answers ++ [item] := by
  unfold afterData
  rw [List.dropWhile_append]
  by_cases hNil : answers.dropWhile isData = []
  · rw [if_pos hNil, hNil, List.isEmpty_nil, if_pos rfl]
    cases hData : isData item with
    | true => rw [List.dropWhile_cons_of_pos hData]; rfl
    | false => rw [List.dropWhile_cons_of_neg (by simp [hData])]; rfl
  · rw [if_neg hNil, if_neg (by simp [hNil])]

theorem not_isData_of_afterData {answers rest : List (BodyItem ε)} {item : BodyItem ε}
    (h : afterData answers = item :: rest) : isData item = false := by
  have hHead := List.head?_dropWhile_not isData answers
  rw [← afterData, h] at hHead
  simpa using hHead

/-- A shape is kept by going back. -/
theorem Shaped.of_append {answers : List (BodyItem ε)} {item : BodyItem ε}
    (h : Shaped (answers ++ [item])) : Shaped answers := by
  unfold Shaped at h ⊢
  rw [afterData_append] at h
  cases hRest : afterData answers with
  | nil => trivial
  | cons first rest =>
      rw [hRest, if_neg (List.cons_ne_nil _ _), List.cons_append] at h
      rcases first with _ | ⟨e | frame⟩
      · exact fun answer hAnswer => h answer (List.mem_append_left _ hAnswer)
      · trivial
      · exact fun answer hAnswer => h answer (List.mem_append_left _ hAnswer)

end Answers

namespace BridgeRun

variable {β ε δ : Type} {B : HttpBody β ε δ} {s s' : BridgeRun β ε}

/-- The slot holds the end of the body until the future takes it. -/
structure Holds (s : BridgeRun β ε) (item : BodyItem ε) : Prop where
  emitted : s.stream.trailersEmitted = isTrailers item
  slot : s.trailers = none → s.stream.slot = some (endOf item)
  taken : ∀ result, s.trailers = some result → result = endOf item

/-- The slot and the future, by what the body has told. -/
def Kept (s : BridgeRun β ε) : Prop :=
  match afterData s.answers with
  | [] => s.stream.trailersEmitted = false ∧ s.stream.slot = none ∧ s.trailers = none
  | some (.error _) :: _ => True
  | item :: _ => Holds s item

structure Mirrors (B : HttpBody β ε δ) (s : BridgeRun β ε) : Prop where
  items : s.items = s.answers.flatMap (mirror B)
  kept : Shaped s.answers → Kept s

def Turn.toList : Turn → List StreamItem
  | .ready item => [item]
  | _ => []

/-- The stream after a turn, with what it has told. -/
def afterTurn (s : BridgeRun β ε) (result : Turn × HttpBodyDataStream (β × List (BodyItem ε))) :
    BridgeRun β ε :=
  { s with stream := result.2, items := s.items ++ Turn.toList result.1 }

theorem items_take (item : BodyItem ε) (body : β × List (BodyItem ε)) :
    Turn.toList (s.stream.take B.recorded body item).1 = mirror B item := by
  rcases item with _ | ⟨e | frame⟩
  · rfl
  · rfl
  · cases frame with
    | trailers map => rfl
    | data bytes =>
        simp only [HttpBodyDataStream.take, mirror]
        split_ifs <;> rfl

theorem answers_take (item : BodyItem ε) (body : β × List (BodyItem ε)) :
    (s.afterTurn (s.stream.take B.recorded body item)).answers = body.2 := by
  unfold HttpBodyDataStream.take
  split <;> rfl

/-- The end told once more leaves the slot alone. -/
theorem Holds.ends {first : BodyItem ε} (h : s.Holds first) (body : β × List (BodyItem ε)) :
    Holds (s.afterTurn (s.stream.take B.recorded body none)) first := by
  refine ⟨h.emitted, fun hTrailers => ?_, h.taken⟩
  have hSlot := h.slot hTrailers
  have hFull : ¬(s.stream.trailersEmitted = false ∧ s.stream.slot = none) := fun hBoth => by
    cases hSlot.symm.trans hBoth.2
  exact (if_neg hFull).trans hSlot

theorem kept_take {item : BodyItem ε} {body : β} (h : s.Kept)
    (hShaped : Shaped (s.answers ++ [item])) :
    Kept (s.afterTurn (s.stream.take B.recorded (body, s.answers ++ [item]) item)) := by
  unfold Kept at h ⊢
  unfold Shaped at hShaped
  rw [answers_take]
  rw [afterData_append] at hShaped ⊢
  cases hRest : afterData s.answers with
  | nil =>
      rw [hRest] at h hShaped
      obtain ⟨hEmitted, hSlot, hTrailers⟩ := h
      rw [if_pos rfl]
      rcases item with _ | ⟨e | frame⟩
      · refine ⟨hEmitted, fun _ => ?_, fun result hResult => ?_⟩
        · exact if_pos ⟨hEmitted, hSlot⟩
        · cases hTrailers.symm.trans hResult
      · trivial
      · cases frame with
        | data bytes => exact ⟨hEmitted, hSlot, hTrailers⟩
        | trailers map =>
            refine ⟨rfl, fun _ => rfl, fun result hResult => ?_⟩
            cases hTrailers.symm.trans hResult
  | cons first rest =>
      rw [hRest] at h hShaped
      rw [if_neg (List.cons_ne_nil _ _), List.cons_append] at hShaped ⊢
      have hLast : item ∈ rest ++ [item] := List.mem_append_right _ List.mem_cons_self
      rcases first with _ | ⟨e | frame⟩
      · obtain rfl := hShaped item hLast
        exact h.ends _
      · trivial
      · obtain rfl := hShaped item hLast
        exact h.ends _

/-- Only what the body has told and the slot count. -/
theorem Kept.congr (h : s.Kept) (hAnswers : s'.answers = s.answers)
    (hEmitted : s'.stream.trailersEmitted = s.stream.trailersEmitted)
    (hSlot : s'.stream.slot = s.stream.slot) (hTrailers : s'.trailers = s.trailers) : s'.Kept := by
  have hHolds : ∀ item, s.Holds item → s'.Holds item := by
    intro item hItem
    refine ⟨hEmitted.trans hItem.emitted, fun hNone => ?_, fun result hResult => ?_⟩
    · exact hSlot.trans (hItem.slot (hTrailers.symm.trans hNone))
    · exact hItem.taken result (hTrailers.symm.trans hResult)
  unfold Kept at h ⊢
  rw [hAnswers]
  cases hRest : afterData s.answers with
  | nil =>
      rw [hRest] at h
      exact ⟨hEmitted.trans h.1, hSlot.trans h.2.1, hTrailers.trans h.2.2⟩
  | cons first rest =>
      rw [hRest] at h
      rcases first with _ | ⟨e | frame⟩
      · exact hHolds _ h
      · trivial
      · exact hHolds _ h

/-- One turn of the loop. -/
theorem Mirrors.turn (h : Mirrors B s) : Mirrors B (s.afterTurn (s.stream.turn B.recorded)) := by
  unfold HttpBodyDataStream.turn
  cases hPoll : (B.pollFrame s.body).1 with
  | none =>
      have hRecorded : B.recorded.pollFrame s.stream.body =
          (none, (B.pollFrame s.body).2, s.answers) := by
        simp only [HttpBody.recorded]
        rw [← body, hPoll]
        simp [answers]
      rw [hRecorded]
      refine ⟨?_, fun hShaped => (h.kept hShaped).congr rfl rfl rfl rfl⟩
      simp only [afterTurn, Turn.toList, List.append_nil]
      exact h.items
  | some item =>
      have hRecorded : B.recorded.pollFrame s.stream.body =
          (some item, (B.pollFrame s.body).2, s.answers ++ [item]) := by
        simp only [HttpBody.recorded]
        rw [← body, hPoll]
        simp [answers]
      rw [hRecorded]
      refine ⟨?_, fun hShaped => ?_⟩
      · rw [answers_take, List.flatMap_append, ← h.items]
        simp only [afterTurn, items_take, List.flatMap_cons, List.flatMap_nil, List.append_nil]
      · rw [answers_take] at hShaped
        exact kept_take (h.kept hShaped.of_append) hShaped

/-- The loop tells what its last turn does. -/
theorem Mirrors.pollLoop (left : Nat) (h : Mirrors B s) :
    Mirrors B { s with
      stream := (s.stream.pollLoop B.recorded left).2
      items := s.items ++ (s.stream.pollLoop B.recorded left).1.toList } := by
  refine @HttpBodyDataStream.pollLoop_rule _ _ _ B.recorded
    (fun stream => Mirrors B { s with stream })
    (fun result => Mirrors B { s with stream := result.2, items := s.items ++ result.1.toList })
    ?_ ?_ ?_ left _ h
  · intro stream item after hBefore hTurn
    have hAfter := hBefore.turn
    rwa [hTurn] at hAfter
  · intro stream after hBefore hTurn
    have hAfter := hBefore.turn
    rwa [hTurn] at hAfter
  · intro stream after hBefore hTurn
    have hAfter := hBefore.turn
    rw [hTurn] at hAfter
    refine ⟨?_, hAfter⟩
    simpa only [afterTurn, Turn.toList, List.append_nil] using hAfter

theorem not_mem_mirror_data {answers : List (BodyItem ε)} (h : afterData answers = []) :
    none ∉ answers.flatMap (mirror B) := by
  intro hMem
  obtain ⟨item, hItem, hNone⟩ := List.mem_flatMap.mp hMem
  have hData := List.dropWhile_eq_nil_iff.mp h item hItem
  rcases item with _ | ⟨e | frame⟩
  · cases hData
  · cases hData
  · cases frame with
    | trailers map => cases hData
    | data bytes =>
        simp only [mirror] at hNone
        split_ifs at hNone
        · cases hNone
        · cases List.mem_singleton.mp hNone

theorem Mirrors.pollTrailers (h : Mirrors B s) (hEnded : none ∈ s.items)
    (hFirst : s.trailers.isNone = true) :
    Mirrors B { s with
      stream := s.stream.pollTrailers.2
      trailers := some s.stream.pollTrailers.1 } := by
  refine ⟨h.items, fun hShaped => ?_⟩
  have hKept := h.kept hShaped
  have hNone := Option.isNone_iff_eq_none.mp hFirst
  have hHolds : ∀ item, s.Holds item → Holds { s with
      stream := s.stream.pollTrailers.2
      trailers := some s.stream.pollTrailers.1 } item := by
    intro item hItem
    refine ⟨hItem.emitted, nofun, fun result hResult => ?_⟩
    rw [← Option.some.inj hResult, HttpBodyDataStream.pollTrailers, hItem.slot hNone]
    rfl
  unfold Kept at hKept ⊢
  change match afterData s.answers with
    | [] => _
    | some (.error _) :: _ => True
    | item :: _ => _
  cases hRest : afterData s.answers with
  | nil =>
      rw [h.items] at hEnded
      exact absurd hEnded (not_mem_mirror_data hRest)
  | cons first rest =>
      rw [hRest] at hKept
      rcases first with _ | ⟨e | frame⟩
      · exact hHolds _ hKept
      · trivial
      · exact hHolds _ hKept

theorem Mirrors.step (h : Mirrors B s) {op : BridgeOp δ} (hStep : s.step B op = some s') :
    Mirrors B s' := by
  cases op with
  | pollNext =>
      obtain rfl := Option.some.inj hStep
      exact h.pollLoop _
  | pollTrailers =>
      obtain ⟨⟨hEnded, hFirst⟩, rfl⟩ := enabled_iff.mp hStep
      exact h.pollTrailers hEnded hFirst
  | outside d =>
      obtain rfl := Option.some.inj hStep
      exact ⟨h.items, fun hShaped => (h.kept hShaped).congr rfl rfl rfl rfl⟩

theorem mirrors_of_reachable {Start : β → Prop} (hReach : (machine B Start).Reachable s) :
    Mirrors B s := by
  refine Machine.ReachableUnder.invariant ?_ ?_ hReach
  · rintro _ ⟨body, -, rfl⟩
    exact ⟨rfl, fun _ => ⟨rfl, rfl, rfl⟩⟩
  · intro before op after h _ hStep
    exact h.step hStep

/-- What every poll of the body keeps, the stream keeps. -/
theorem body_invariant {Start : β → Prop} {P : β × List (BodyItem ε) → Prop}
    (hStart : ∀ body, Start body → P (body, []))
    (hPoll : ∀ x, P x → P (B.recorded.pollFrame x).2)
    (hOutside : ∀ d x, P x → P (B.recorded.outside d x))
    (hReach : (machine B Start).Reachable s) : P s.stream.body := by
  have hTurn : ∀ (stream : HttpBodyDataStream (β × List (BodyItem ε))) outcome after,
      P stream.body → stream.turn B.recorded = (outcome, after) → P after.body := by
    intro stream outcome after hBody hEq
    have hNext := hPoll _ hBody
    unfold HttpBodyDataStream.turn at hEq
    generalize B.recorded.pollFrame stream.body = result at hNext hEq
    obtain ⟨_ | item, body⟩ := result
    · obtain rfl := (Prod.mk.inj hEq).2
      exact hNext
    · simp only [HttpBodyDataStream.take] at hEq
      split at hEq <;> obtain rfl := (Prod.mk.inj hEq).2 <;> exact hNext
  refine @Machine.ReachableUnder.invariant _ _ (machine B Start) _ (fun s => P s.stream.body) ?_ ?_
    s hReach
  · rintro _ ⟨body, hBody, rfl⟩
    exact hStart body hBody
  · intro before op after h _ hStep
    cases op with
    | pollNext =>
        obtain rfl := Option.some.inj hStep
        refine @HttpBodyDataStream.pollLoop_rule _ _ _ B.recorded (fun stream => P stream.body)
          (fun result => P result.2.body) ?_ ?_ ?_ _ _ h
        · exact fun stream item after hBefore hEq => hTurn stream _ after hBefore hEq
        · exact fun stream after hBefore hEq => hTurn stream _ after hBefore hEq
        · exact fun stream after hBefore hEq =>
            and_self_iff.mpr (hTurn stream _ after hBefore hEq)
    | pollTrailers =>
        obtain ⟨-, rfl⟩ := enabled_iff.mp hStep
        exact h
    | outside d =>
        obtain rfl := Option.some.inj hStep
        exact hOutside d _ h

end BridgeRun

/-! The trailers of a frame. -/

section Trailers

variable {map : HyperHeaders}

theorem headerMapToBlock_eq_ok {block : HeaderBlock} :
    headerMapToBlock map = .ok block ↔ hyperToHeaderBlock map = .ok block := by
  rw [headerMapToBlock, hyperToHeaderBlock, mapM_eq_ok, mapM_eq_ok]
  simp only [bind_eq_ok, mapError_eq_ok, pure, Except.pure, Except.ok.injEq]

/-- What is stored of a trailers frame: an error, nothing, or its fields. -/
structure StoredAs (map : HyperHeaders) (result : Except Str (Option Trailers)) : Prop where
  invalid : ¬ValidTrailers map → result = .error invalidResponseTrailers
  absent : map = [] → result = .ok none
  found : ValidTrailers map → map ≠ [] → ∃ trailers, result = .ok (some trailers) ∧
    fieldsOf trailers = canonicalFields map

theorem readTrailers_invalid (h : ¬ValidTrailers map) :
    readTrailers map = .error invalidResponseTrailers := by
  unfold readTrailers
  cases hBlock : headerMapToBlock map with
  | error e => rfl
  | ok block =>
      have hLimits : (Trailers.withLimits block {}).isOk = false := by
        rw [← Bool.not_eq_true]
        exact fun hOk => h ⟨block, headerMapToBlock_eq_ok.mp hBlock, hOk⟩
      cases hTrailers : Trailers.withLimits block {} with
      | error e => simp [Except.mapError, bind, Except.bind, hTrailers]
      | ok trailers =>
          rw [hTrailers] at hLimits
          cases hLimits

theorem readTrailers_valid (h : ValidTrailers map) :
    ∃ trailers, fieldsOf trailers = canonicalFields map ∧
      readTrailers map = .ok (if map = [] then none else some trailers) := by
  obtain ⟨block, hBlock, hOk⟩ := h
  have hFields := hyperToHeaderBlock_fields hBlock
  cases hTrailers : Trailers.withLimits block {} with
  | error e =>
      rw [hTrailers] at hOk
      cases hOk
  | ok trailers =>
      have hSame := withLimits_block hTrailers
      refine ⟨trailers, by rw [fieldsOf, hSame, hFields], ?_⟩
      have hEmpty : trailers.block.isEmpty = true ↔ map = [] := by
        rw [hSame, List.isEmpty_iff]
        constructor
        · rintro rfl
          exact List.map_eq_nil_iff.mp hFields.symm
        · rintro rfl
          exact List.map_eq_nil_iff.mp hFields
      simp only [readTrailers, headerMapToBlock_eq_ok.mpr hBlock, Except.mapError, hTrailers, bind,
        Except.bind, pure, Except.pure, hEmpty]

theorem readTrailers_storedAs (map : HyperHeaders) : StoredAs map (readTrailers map) := by
  refine ⟨readTrailers_invalid, ?_, fun hValid hSome => ?_⟩
  · rintro rfl
    rfl
  · obtain ⟨trailers, hFields, hRead⟩ := readTrailers_valid hValid
    rw [if_neg hSome] at hRead
    exact ⟨trailers, hRead, hFields⟩

end Trailers

end Eggserve.Server
