import Eggserve.Primitives.BodyTrailers
import Eggserve.Server.Finalize

/-! The bridge between the incoming body of HTTP/1 and HTTP/2 and the request
body. It takes the trailer frames out of the stream and leaves them in a slot. -/
namespace Eggserve.Server
open Rust Transition Eggserve.Primitives

inductive BodyFrame where
  | data (bytes : List UInt8)
  | trailers (map : HyperHeaders)
  deriving DecidableEq

/-- One answer of the incoming body to a poll. After its last answer the body
has ended. -/
inductive FramePoll where
  | pending
  | frame (frame : BodyFrame)
  | error (message : Str)
  deriving DecidableEq

def hyperToHeaderBlock (map : HyperHeaders) : Except Str HeaderBlock :=
  map.mapM fun field => do
    let name ← (HeaderName.new field.name).mapError fun _ => ("invalid trailer name" : Str)
    let value ← (HeaderValue.fromBytes field.value).mapError
      fun _ => ("invalid trailer value" : Str)
    return ⟨name, value⟩

def dataAfterTrailers : Str := "data after trailers"

/-- What the closure of `wrap_incoming_body_with_trailers` shares between its
calls: whether a trailer frame was seen, and the slot. -/
structure TrailerBridge where
  seen : Bool
  slot : WireTrailerSlot
  deriving DecidableEq

namespace TrailerBridge

def new : TrailerBridge := ⟨false, none⟩

/-- The first trailer frame. A slot that is filled already is overwritten only
by a block that could be converted. -/
def store (slot : WireTrailerSlot) : Except Str HeaderBlock → WireTrailerSlot
  | .ok block =>
      if slot.isNone then some (.ok block) else some (.error repeatedTrailerBlock)
  | .error message => if slot.isNone then some (.error message) else slot

/-- The closure on one frame. Trailers never reach the stream. -/
def takeFrame (bridge : TrailerBridge) : BodyFrame → Option StreamPoll × TrailerBridge
  | .trailers map =>
      if bridge.seen then
        (none, { bridge with
          slot := if bridge.slot.isNone then some (.error repeatedTrailerBlock) else bridge.slot })
      else (none, ⟨true, store bridge.slot (hyperToHeaderBlock map)⟩)
  | .data bytes =>
      if bridge.seen then
        (some (.error dataAfterTrailers), { bridge with slot := some (.error dataAfterTrailers) })
      else (some (.chunk bytes), bridge)

/-- One poll of the wrapped stream, with the answers that are left. No answer
is the end of the stream. -/
def poll (bridge : TrailerBridge) :
    List FramePoll → List StreamPoll × TrailerBridge × List FramePoll
  | [] => ([], bridge, [])
  | .pending :: rest => ([.pending], bridge, rest)
  | .error message :: rest => ([.error message], bridge, rest)
  | .frame frame :: rest =>
      match bridge.takeFrame frame with
      | (some answer, bridge) => ([answer], bridge, rest)
      | (none, bridge) => bridge.poll rest

/-! What the bridge has carried over. -/

/-- The bridge after one answer that does not end the body with an error. -/
def advance (bridge : TrailerBridge) : FramePoll → Option TrailerBridge
  | .pending => some bridge
  | .error _ => none
  | .frame (.trailers map) => some (bridge.takeFrame (.trailers map)).2
  | .frame (.data _) => if bridge.seen then none else some bridge

def walk (bridge : TrailerBridge) (frames : List FramePoll) : Option TrailerBridge :=
  frames.foldlM advance bridge

theorem walk_append (bridge : TrailerBridge) (frames rest : List FramePoll) :
    bridge.walk (frames ++ rest) = (bridge.walk frames).bind (·.walk rest) :=
  List.foldlM_append

theorem walk_cons (bridge : TrailerBridge) (answer : FramePoll) (rest : List FramePoll) :
    bridge.walk (answer :: rest) = (bridge.advance answer).bind (·.walk rest) :=
  List.foldlM_cons

/-- What one poll of the stream does: it uses up answers of the incoming body,
and unless it answers an error the bridge has walked over them. -/
structure Polled (bridge : TrailerBridge) (frames : List FramePoll) (polls : List StreamPoll)
    (after : TrailerBridge) (rest : List FramePoll) : Prop where
  short : polls.length ≤ 1
  ended : polls = [] → rest = []
  shrinks : polls ≠ [] → rest.length < frames.length
  walked : (∃ message, polls = [.error message]) ∧ bridge.walk frames = none ∨
    (∀ message, polls ≠ [.error message]) ∧
      ∃ used, frames = used ++ rest ∧ bridge.walk used = some after

theorem polled (bridge : TrailerBridge) (frames : List FramePoll) :
    Polled bridge frames (bridge.poll frames).1 (bridge.poll frames).2.1
      (bridge.poll frames).2.2 := by
  induction frames generalizing bridge with
  | nil =>
      exact ⟨Nat.zero_le 1, fun _ => rfl, fun h => absurd rfl h, .inr ⟨fun _ => nofun, [], rfl, rfl⟩⟩
  | cons answer rest ih =>
      have hShorter : rest.length < (answer :: rest).length := Nat.lt_succ_self _
      cases answer with
      | pending =>
          exact ⟨Nat.le_refl 1, nofun, fun _ => hShorter,
            .inr ⟨fun _ => nofun, [.pending], rfl, rfl⟩⟩
      | error message =>
          exact ⟨Nat.le_refl 1, nofun, fun _ => hShorter, .inl ⟨⟨message, rfl⟩, rfl⟩⟩
      | frame frame =>
          cases frame with
          | data bytes =>
              simp only [poll, takeFrame]
              by_cases hSeen : bridge.seen = true
              · rw [if_pos hSeen]
                refine ⟨Nat.le_refl 1, nofun, fun _ => hShorter,
                  .inl ⟨⟨dataAfterTrailers, rfl⟩, ?_⟩⟩
                rw [walk_cons, advance, if_pos hSeen]
                rfl
              · rw [if_neg hSeen]
                refine ⟨Nat.le_refl 1, nofun, fun _ => hShorter,
                  .inr ⟨fun _ => nofun, [.frame (.data bytes)], rfl, ?_⟩⟩
                rw [walk_cons, advance, if_neg hSeen]
                rfl
          | trailers map =>
              have hPoll : bridge.poll (.frame (.trailers map) :: rest) =
                  (bridge.takeFrame (.trailers map)).2.poll rest := by
                simp only [poll, takeFrame]
                split_ifs <;> rfl
              rw [hPoll]
              have hRest := ih (bridge.takeFrame (.trailers map)).2
              refine ⟨hRest.short, hRest.ended, fun h => (hRest.shrinks h).trans hShorter, ?_⟩
              have hWalk : ∀ answers, bridge.walk (.frame (.trailers map) :: answers) =
                  (bridge.takeFrame (.trailers map)).2.walk answers := fun _ => walk_cons _ _ _
              rcases hRest.walked with ⟨hError, hNone⟩ | ⟨hPolls, used, hUsed, hSome⟩
              · exact .inl ⟨hError, (hWalk rest).trans hNone⟩
              · exact .inr ⟨hPolls, .frame (.trailers map) :: used, congrArg _ hUsed,
                  (hWalk used).trans hSome⟩

end TrailerBridge

/-! Frames in order. -/

/-- The blocks of the trailer frames. -/
def trailerMaps (frames : List FramePoll) : List HyperHeaders :=
  frames.filterMap fun
    | .frame (.trailers map) => some map
    | _ => none

/-- Neither an error nor, once a trailer frame was seen, a data frame. -/
def InOrder : Bool → List FramePoll → Prop
  | _, [] => True
  | seen, .pending :: rest => InOrder seen rest
  | _, .error _ :: _ => False
  | seen, .frame (.data _) :: rest => seen = false ∧ InOrder seen rest
  | _, .frame (.trailers _) :: rest => InOrder true rest

namespace TrailerBridge

/-- After its first trailer frame the bridge does not change any more. -/
theorem walk_seen {wire : Except Str HeaderBlock} {frames : List FramePoll}
    {after : TrailerBridge} :
    walk ⟨true, some wire⟩ frames = some after ↔
      InOrder true frames ∧ after = ⟨true, some wire⟩ := by
  induction frames with
  | nil => exact ⟨fun h => ⟨trivial, (Option.some.inj h).symm⟩, fun h => congrArg some h.2.symm⟩
  | cons answer rest ih =>
      rw [walk_cons]
      cases answer with
      | pending => exact ih
      | error message => simp [advance, InOrder]
      | frame frame =>
          cases frame with
          | data bytes => simp [advance, InOrder]
          | trailers map => exact ih

/-- The slot holds the first block. -/
theorem walk_new {frames : List FramePoll} {after : TrailerBridge} :
    new.walk frames = some after ↔
      InOrder false frames ∧ after = ⟨!(trailerMaps frames).isEmpty,
        (trailerMaps frames).head?.map hyperToHeaderBlock⟩ := by
  induction frames with
  | nil => exact ⟨fun h => ⟨trivial, (Option.some.inj h).symm⟩, fun h => congrArg some h.2.symm⟩
  | cons answer rest ih =>
      rw [walk_cons]
      cases answer with
      | pending => exact ih
      | error message => simp [advance, InOrder]
      | frame frame =>
          cases frame with
          | data bytes =>
              have hAdvance : new.advance (.frame (.data bytes)) = some new := rfl
              rw [hAdvance, Option.bind_some, ih, InOrder]
              simp only [true_and]
              rfl
          | trailers map =>
              have hAdvance : new.advance (.frame (.trailers map)) =
                  some ⟨true, some (hyperToHeaderBlock map)⟩ := by
                simp only [advance, takeFrame, new, Bool.false_eq_true, if_false, store]
                cases hyperToHeaderBlock map <;> rfl
              rw [hAdvance, Option.bind_some, walk_seen, InOrder]
              rfl

end TrailerBridge

/-- The frames pass the bridge, and the slot is in order behind them. -/
def Accepts (frames : List FramePoll) (found : Option Trailers) : Prop :=
  ∃ bridge, TrailerBridge.new.walk frames = some bridge ∧
    drainAndValidateWireSlot bridge.slot {} = .ok found

/-! Offending frames. -/

/-- The block passes the conversion and the validation. -/
def ValidTrailers (map : HyperHeaders) : Prop :=
  ∃ block, hyperToHeaderBlock map = .ok block ∧ (Trailers.withLimits block {}).isOk = true

def SecondTrailers (frames : List FramePoll) : Prop :=
  ∃ first second, [.frame (.trailers first), .frame (.trailers second)].Sublist frames

def DataAfterTrailers (frames : List FramePoll) : Prop :=
  ∃ map bytes, [.frame (.trailers map), .frame (.data bytes)].Sublist frames

def Offends (frames : List FramePoll) : Prop :=
  SecondTrailers frames ∨ DataAfterTrailers frames ∨
    ∃ map, .frame (.trailers map) ∈ frames ∧ ¬ValidTrailers map

/-- Behind trailers that are valid come further ones, and nothing else that would
end the body with an error. -/
structure RepeatsValid (frames : List FramePoll) : Prop where
  no_error : ∀ message, .error message ∉ frames
  no_data : ¬DataAfterTrailers frames
  second : SecondTrailers frames
  first_valid : ∃ map, (trailerMaps frames).head? = some map ∧ ValidTrailers map

theorem dataAfterTrailers_cons {answer : FramePoll} {rest : List FramePoll} :
    DataAfterTrailers (answer :: rest) ↔ DataAfterTrailers rest ∨
      (∃ map, answer = .frame (.trailers map)) ∧ ∃ bytes, .frame (.data bytes) ∈ rest := by
  unfold DataAfterTrailers
  constructor
  · rintro ⟨map, bytes, hSub⟩
    rcases List.sublist_cons_iff.mp hSub with hRest | ⟨tail, hTail, hRest⟩
    · exact .inl ⟨map, bytes, hRest⟩
    · obtain ⟨rfl, rfl⟩ := List.cons.inj hTail
      exact .inr ⟨⟨map, rfl⟩, bytes, List.singleton_sublist.mp hRest⟩
  · rintro (⟨map, bytes, hRest⟩ | ⟨⟨map, rfl⟩, bytes, hMem⟩)
    · exact ⟨map, bytes, hRest.cons answer⟩
    · exact ⟨map, bytes, (List.singleton_sublist.mpr hMem).cons_cons _⟩

theorem inOrder_iff {seen : Bool} {frames : List FramePoll} :
    InOrder seen frames ↔ (∀ message, .error message ∉ frames) ∧ ¬DataAfterTrailers frames ∧
      (seen = true → ∀ bytes, .frame (.data bytes) ∉ frames) := by
  induction frames generalizing seen with
  | nil => simp [InOrder, DataAfterTrailers]
  | cons answer rest ih =>
      rw [dataAfterTrailers_cons]
      cases answer with
      | pending => simp [InOrder, ih]
      | error message =>
          refine iff_of_false id fun hNone => ?_
          exact hNone.1 message List.mem_cons_self
      | frame frame =>
          cases frame with
          | data bytes =>
              cases seen with
              | true =>
                  refine iff_of_false (fun hOrder => nomatch hOrder.1) fun hNone => ?_
                  exact hNone.2.2 rfl bytes List.mem_cons_self
              | false => simp [InOrder, ih]
          | trailers map =>
              simp only [InOrder, ih, List.mem_cons, reduceCtorEq, false_or, not_or, not_and,
                not_exists, FramePoll.frame.injEq, BodyFrame.trailers.injEq, exists_eq',
                forall_const, and_assoc]
              exact and_congr_right fun _ => and_congr_right fun _ =>
                ⟨fun hNone => ⟨hNone, fun _ => hNone⟩, fun hNone => hNone.1⟩

theorem accepts_iff {frames : List FramePoll} {found : Option Trailers} :
    Accepts frames found ↔ InOrder false frames ∧
      drainAndValidateWireSlot ((trailerMaps frames).head?.map hyperToHeaderBlock) {} =
        .ok found := by
  unfold Accepts
  constructor
  · rintro ⟨bridge, hWalk, hDrain⟩
    obtain ⟨hOrder, rfl⟩ := TrailerBridge.walk_new.mp hWalk
    exact ⟨hOrder, hDrain⟩
  · rintro ⟨hOrder, hDrain⟩
    exact ⟨_, TrailerBridge.walk_new.mpr ⟨hOrder, rfl⟩, hDrain⟩

/-- What the slot holds behind accepted frames. -/
theorem accepts_cases {frames : List FramePoll} {found : Option Trailers}
    (h : Accepts frames found) :
    (trailerMaps frames = [] ∧ found = none) ∨
      ∃ map block trailers, (trailerMaps frames).head? = some map ∧
        hyperToHeaderBlock map = .ok block ∧ Trailers.withLimits block {} = .ok trailers ∧
        found = some trailers := by
  obtain ⟨-, hDrain⟩ := accepts_iff.mp h
  rcases RequestBody.drainAndValidateWireSlot_eq_ok hDrain with ⟨hNone, rfl⟩ |
    ⟨block, trailers, hSome, rfl, hValid⟩
  · exact .inl ⟨List.head?_eq_none_iff.mp (Option.map_eq_none_iff.mp hNone), rfl⟩
  · obtain ⟨map, hMap, hBlock⟩ := Option.map_eq_some_iff.mp hSome
    exact .inr ⟨map, block, trailers, hMap, hBlock, hValid, rfl⟩

theorem mem_trailerMaps {frames : List FramePoll} {map : HyperHeaders} :
    map ∈ trailerMaps frames ↔ .frame (.trailers map) ∈ frames := by
  rw [trailerMaps, List.mem_filterMap]
  constructor
  · rintro ⟨answer, hMem, hSome⟩
    split at hSome
    · obtain rfl := Option.some.inj hSome
      exact hMem
    · cases hSome
  · intro hMem
    exact ⟨_, hMem, rfl⟩

theorem trailerMaps_sublist (frames : List FramePoll) :
    ((trailerMaps frames).map fun map => FramePoll.frame (.trailers map)).Sublist frames := by
  induction frames with
  | nil => exact .slnil
  | cons answer rest ih =>
      cases answer with
      | pending => exact ih.cons _
      | error message => exact ih.cons _
      | frame frame =>
          cases frame with
          | data bytes => exact ih.cons _
          | trailers map => exact ih.cons_cons _

theorem secondTrailers_of_ne {frames : List FramePoll} {first map : HyperHeaders}
    (hFirst : (trailerMaps frames).head? = some first) (hMem : .frame (.trailers map) ∈ frames)
    (hOther : map ≠ first) : SecondTrailers frames := by
  have hSub := trailerMaps_sublist frames
  have hMap := mem_trailerMaps.mpr hMem
  cases hMaps : trailerMaps frames with
  | nil =>
      rw [hMaps] at hMap
      cases hMap
  | cons head rest =>
      rw [hMaps] at hFirst hMap hSub
      obtain rfl : head = first := Option.some.inj hFirst
      have hRest : map ∈ rest := (List.mem_cons.mp hMap).resolve_left hOther
      have hPair : [head, map].Sublist (head :: rest) :=
        (List.singleton_sublist.mpr hRest).cons_cons head
      exact ⟨head, map, (hPair.map _).trans hSub⟩

/-- Frames that offend are accepted only where valid trailers are repeated. -/
theorem repeatsValid_of_accepts {frames : List FramePoll} {found : Option Trailers}
    (hOffends : Offends frames) (hAccepts : Accepts frames found) : RepeatsValid frames := by
  obtain ⟨hNoError, hNoData, -⟩ := inOrder_iff.mp (accepts_iff.mp hAccepts).1
  have hValid : ∀ map, .frame (.trailers map) ∈ frames →
      ∃ first, (trailerMaps frames).head? = some first ∧ ValidTrailers first := by
    intro map hMem
    rcases accepts_cases hAccepts with ⟨hNone, -⟩ | ⟨first, block, trailers, hFirst, hBlock,
      hLimits, -⟩
    · have hMap := mem_trailerMaps.mpr hMem
      rw [hNone] at hMap
      cases hMap
    · exact ⟨first, hFirst, block, hBlock, by rw [hLimits]; rfl⟩
  rcases hOffends with hSecond | hData | ⟨map, hMem, hInvalid⟩
  · obtain ⟨first, second, hSub⟩ := hSecond
    exact ⟨hNoError, hNoData, ⟨first, second, hSub⟩, hValid first (hSub.subset List.mem_cons_self)⟩
  · exact absurd hData hNoData
  · obtain ⟨first, hFirst, hOk⟩ := hValid map hMem
    refine ⟨hNoError, hNoData, secondTrailers_of_ne hFirst hMem ?_, first, hFirst, hOk⟩
    rintro rfl
    exact hInvalid hOk

/-- Where valid trailers are repeated, the first of them are accepted. -/
theorem RepeatsValid.accepts {frames : List FramePoll} (h : RepeatsValid frames) :
    ∃ found, Accepts frames found := by
  obtain ⟨map, hMap, block, hBlock, hValid⟩ := h.first_valid
  cases hLimits : Trailers.withLimits block {} with
  | error e =>
      rw [hLimits] at hValid
      cases hValid
  | ok trailers =>
      refine ⟨some trailers, accepts_iff.mpr ⟨inOrder_iff.mpr ⟨h.no_error, h.no_data, nofun⟩, ?_⟩⟩
      rw [hMap, Option.map_some, hBlock, drainAndValidateWireSlot, hLimits]

/-! The fields of a block. -/

/-- The fields of trailers, as the transport has them. -/
def fieldsOf (trailers : Trailers) : HyperHeaders :=
  trailers.block.map fun field => ⟨field.name.text, field.value.bytes⟩

/-- The canonical form of a field has no blanks around its value. -/
def canonicalFields (map : HyperHeaders) : HyperHeaders :=
  map.map fun field => { field with value := trimOws field.value }

theorem hyperToHeaderBlock_fields {map : HyperHeaders} {block : HeaderBlock}
    (h : hyperToHeaderBlock map = .ok block) :
    block.map (fun field => HyperField.mk field.name.text field.value.bytes) =
      canonicalFields map := by
  have hFields := mapM_eq_ok.mp h
  clear h
  induction hFields with
  | nil => rfl
  | @cons field parsed map block hField _ ih =>
      obtain ⟨name, hName, hField⟩ := bind_eq_ok.mp hField
      obtain ⟨value, hValue, hField⟩ := bind_eq_ok.mp hField
      obtain rfl := Except.ok.inj hField
      rw [List.map_cons, ih, HeaderName.text_of_new (mapError_eq_ok.mp hName),
        HeaderValue.bytes_of_fromBytes (mapError_eq_ok.mp hValue)]
      rfl

theorem withLimits_block {block : HeaderBlock} {limits : TrailerLimits} {trailers : Trailers}
    (h : Trailers.withLimits block limits = .ok trailers) : trailers.block = block := by
  unfold Trailers.withLimits at h
  split at h
  · obtain rfl := Except.ok.inj h
    rfl
  · cases h

theorem Accepts.fields {frames : List FramePoll} {found : Option Trailers}
    (h : Accepts frames found) :
    found.map fieldsOf = (trailerMaps frames).head?.map canonicalFields := by
  rcases accepts_cases h with ⟨hNone, rfl⟩ | ⟨map, block, trailers, hMap, hBlock, hLimits, rfl⟩
  · rw [hNone]
    rfl
  · rw [hMap, Option.map_some, Option.map_some, ← hyperToHeaderBlock_fields hBlock,
      ← withLimits_block hLimits]
    rfl

end Eggserve.Server
