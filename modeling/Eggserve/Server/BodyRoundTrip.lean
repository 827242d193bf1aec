import Eggserve.Server.HttpResponseBody

/-! A request body sent back as a response: through its `http_body` view and the
way of such a view into the canonical pipeline. -/
namespace Eggserve.Server
open Rust Transition Eggserve.Primitives

/-- What the `http` crate does with names and values that are canonical: a name
comes out in lower case, a value as it is. -/
structure HttpCrate.Documented (http : HttpCrate) : Prop where
  name : ∀ name : HeaderName, http.headerName (utf8 name.text) = some (name.text.map Char.toLower)
  value : ∀ value : HeaderValue, http.headerValue value.bytes = some value.bytes

/-- The view of a request body. Between two polls the transport fills the slot. -/
def requestView (http : HttpCrate) :
    HttpBody RequestBody RequestBodyHttpError (Except Str HeaderBlock) where
  pollFrame := pollFrame http
  outside wire body := FrameRun.fill body wire
  isEndStream := isEndStream
  sizeHint := sizeHint
  display _ := "request body failed"

/-! The end of the view. -/

/-- What the view tells behind a complete body with these trailers. -/
def toldEnd (http : HttpCrate) : Option Trailers → FrameItem
  | none => none
  | some trailers =>
      match trailersToMap http trailers with
      | .ok map => some (.ok (.trailers map))
      | .error _ => some (.error ⟨"invalid request trailers"⟩)

theorem endFrame_toldEnd {http : HttpCrate} {body : RequestBody} (hState : body.state = .complete)
    (hError : body.completedTrailerError = none) :
    (endFrame http body).1 = toldEnd http body.completedTrailers := by
  have hTake : body.takeCompletedTrailers =
      (body.completedTrailers, { body with completedTrailers := none }) := by
    simp [RequestBody.takeCompletedTrailers, hState, hError]
  unfold endFrame toldEnd
  rw [hError, hTake]
  cases body.completedTrailers with
  | none => rfl
  | some trailers =>
      simp only
      cases trailersToMap http trailers <;> rfl

namespace FrameRun

variable {http : HttpCrate} {r : FrameRun}

/-- The first answer behind the data is about the trailers that the body itself
has, and then comes the end for ever; or it is an error. -/
def Tells (http : HttpCrate) (r : FrameRun) : Prop :=
  match afterData r.answers with
  | [] => r.body.state.Live ∨ r.body.state = .complete ∧ r.plain.state = .complete ∧
      r.plain.completedTrailers = r.body.completedTrailers
  | some (.error _) :: _ => ¬r.body.state.Live
  | item :: rest => Done r.body ∧ (∀ answer ∈ rest, answer = none) ∧ r.plain.state = .complete ∧
      item = toldEnd http r.plain.completedTrailers

theorem tells_of_data {answers : List FrameItem} {body plain : RequestBody} {yielded : List UInt8}
    {bytes : List UInt8} (hData : afterData answers = [])
    (h : body.state.Live ∨ body.state = .complete ∧ plain.state = .complete ∧
      plain.completedTrailers = body.completedTrailers) :
    Tells http ⟨body, answers ++ [some (.ok (.data bytes))], plain, yielded⟩ := by
  unfold Tells
  rw [afterData_append, if_pos hData]
  exact h

theorem tells_of_error {answers : List FrameItem} {body plain : RequestBody} {yielded : List UInt8}
    {e : RequestBodyHttpError} (hData : afterData answers = []) (hClosed : ¬body.state.Live) :
    Tells http ⟨body, answers ++ [some (.error e)], plain, yielded⟩ := by
  unfold Tells
  rw [afterData_append, if_pos hData]
  exact hClosed

/-- Behind a complete body its trailers are told. -/
theorem tells_of_end {answers : List FrameItem} {body plain : RequestBody} {yielded : List UInt8}
    (hData : afterData answers = []) (hState : body.state = .complete)
    (hError : body.completedTrailerError = none) (hPlain : plain.state = .complete)
    (hSame : plain.completedTrailers = body.completedTrailers) :
    Tells http ⟨(endFrame http body).2, answers ++ [(endFrame http body).1], plain, yielded⟩ := by
  have hDone := (@endFrame_complete http body hState hError).1
  unfold Tells
  rw [afterData_append, if_pos hData, endFrame_toldEnd hState hError, ← hSame]
  cases hTold : toldEnd http plain.completedTrailers with
  | none => exact ⟨hDone, nofun, hPlain, rfl⟩
  | some answer =>
      cases answer with
      | error e => exact hDone.1
      | ok frame =>
          cases frame with
          | trailers map => exact ⟨hDone, nofun, hPlain, rfl⟩
          | data bytes =>
              exfalso
              unfold toldEnd at hTold
              split at hTold
              · cases hTold
              · split at hTold <;> cases hTold

theorem tells_poll (hTracks : Tracks r) (h : Tells http r) : Tells http (r.step http .pollFrame) := by
  cases hRest : afterData r.answers with
  | cons first rest =>
      have hMore : ∀ item, afterData (r.answers ++ [item]) = first :: (rest ++ [item]) := by
        intro item
        rw [afterData_append, hRest, if_neg (List.cons_ne_nil _ _), List.cons_append]
      have hEnds : Done r.body → (∀ answer ∈ rest, answer = none) →
          ∀ answer ∈ rest ++ [(endFrame http r.body).1], answer = none := by
        intro hDone hNone
        rw [endFrame_done hDone]
        exact List.forall_mem_append.mpr ⟨hNone, fun _ => List.mem_singleton.mp⟩
      unfold Tells at h
      rw [hRest] at h
      rcases first with _ | ⟨e | frame⟩
      · obtain ⟨hDone, hNone, hTold⟩ := h
        rw [step_closed hTracks hDone.1]
        unfold Tells
        rw [hMore]
        exact ⟨(@endFrame_done http r.body hDone) ▸ hDone, hEnds hDone hNone, hTold⟩
      · rw [step_closed hTracks h]
        unfold Tells
        rw [hMore]
        exact (@told_endFrame http r.body h).closed
      · obtain ⟨hDone, hNone, hTold⟩ := h
        rw [step_closed hTracks hDone.1]
        unfold Tells
        rw [hMore]
        exact ⟨(@endFrame_done http r.body hDone) ▸ hDone, hEnds hDone hNone, hTold⟩
  | nil =>
      by_cases hLive : r.body.state.Live
      · obtain ⟨hPlaced, hPlain, hError⟩ := hTracks.live hLive
        have hPolls := polls fun _ => hPlaced
        simp only [step, pollFrame, hPlain]
        generalize r.body.pollNext = result at hPolls ⊢
        obtain ⟨poll, after⟩ := result
        simp only at hPolls
        cases hPolls with
        | closed hClosed => exact absurd hLive hClosed
        | waits rest _ hAfter =>
            unfold Tells
            simp only [Option.toList_none, List.append_nil, hRest]
            exact Or.inl hLive
        | yields chunk inner _ hAfter => exact tells_of_data hRest (Or.inl (Or.inr rfl))
        | finishes chunk inner _ hLength => exact tells_of_data hRest (Or.inr ⟨rfl, rfl, rfl⟩)
        | fails e inner _ => exact tells_of_error hRest (RequestBody.not_live.mpr (.inr rfl))
        | refused message _ _ _ => exact tells_of_error hRest (RequestBody.not_live.mpr (.inr rfl))
        | ends found _ _ hLength _ => exact tells_of_end hRest rfl hError rfl rfl
      · unfold Tells at h
        rw [hRest] at h
        obtain ⟨hState, hPlain, hSame⟩ := h.resolve_left hLive
        rw [step_closed hTracks hLive]
        exact tells_of_end hRest hState (hTracks.complete hState).1 hPlain hSame

theorem tells_of_reachable (hReach : (machine http).Reachable r) : Tells http r := by
  have hBoth : Tracks r ∧ Tells http r := by
    refine @Machine.ReachableUnder.invariant _ _ (machine http) _
      (fun r => Tracks r ∧ Tells http r) ?_ ?_ r hReach
    · rintro _ ⟨body, hBuilt, rfl⟩
      refine ⟨tracks_start hBuilt, Or.inl ?_⟩
      rw [start, (placed_of_built hBuilt).1]
      exact Or.inl rfl
    · rintro before op after ⟨hTracks, hTells⟩ _ hStep
      obtain rfl := Option.some.inj hStep
      refine ⟨tracks_step hTracks op, ?_⟩
      cases op with
      | pollFrame => exact tells_poll hTracks hTells
      | fillSlot wire => exact hTells
  exact hBoth.2

/-- The answers have the shape that a client counts on. -/
theorem Tells.shaped (h : Tells http r) : Shaped r.answers := by
  unfold Tells at h
  unfold Shaped
  cases hRest : afterData r.answers with
  | nil => trivial
  | cons first rest =>
      rw [hRest] at h
      rcases first with _ | ⟨e | frame⟩
      · exact h.2.1
      · trivial
      · exact h.2.1

theorem Tells.trailers {item : FrameItem} {rest : List FrameItem} (h : Tells http r)
    (hNoError : ∀ e rest, afterData r.answers ≠ some (.error e) :: rest)
    (hRest : afterData r.answers = item :: rest) :
    r.plain.state = .complete ∧ item = toldEnd http r.plain.completedTrailers := by
  unfold Tells at h
  rw [hRest] at h
  rcases item with _ | ⟨e | frame⟩
  · exact h.2.2
  · exact absurd hRest (hNoError e rest)
  · exact h.2.2

end FrameRun

/-! The trailers on their way through the `http` crate. -/

section Lower

theorem isTokenByte_lower_ascii : ∀ n < 128, isTokenByte (UInt8.ofNat n) = true →
    (Char.ofNat n).toLower.toNat < 128 ∧
      isTokenByte (UInt8.ofNat (Char.ofNat n).toLower.toNat) = true := by
  decide

theorem isTokenByte_toLower {c : Char} (h : ∀ b ∈ String.utf8EncodeChar c, isTokenByte b = true) :
    (String.utf8EncodeChar c.toLower).length = (String.utf8EncodeChar c).length ∧
      ∀ b ∈ String.utf8EncodeChar c.toLower, isTokenByte b = true := by
  have hAscii := toNat_lt_of_token_bytes h
  rw [utf8EncodeChar_ascii hAscii] at h ⊢
  have hLower := isTokenByte_lower_ascii c.toNat hAscii (h _ List.mem_cons_self)
  rw [Char.ofNat_toNat] at hLower
  rw [utf8EncodeChar_ascii hLower.1]
  refine ⟨rfl, fun b hb => ?_⟩
  rw [List.mem_singleton.mp hb]
  exact hLower.2

/-- A name in lower case is as long as it was, and still a token. -/
theorem lower_token {text : Str} (h : isValidHeaderName text = true) :
    (utf8 (text.map Char.toLower)).length = (utf8 text).length ∧
      isValidHeaderName (text.map Char.toLower) = true := by
  unfold isValidHeaderName at h ⊢
  induction text with
  | nil => exact ⟨rfl, rfl⟩
  | cons c rest ih =>
      rw [utf8_cons, List.all_append, Bool.and_eq_true] at h
      obtain ⟨hLength, hRest⟩ := ih h.2
      obtain ⟨hFirst, hToken⟩ := isTokenByte_toLower (List.all_eq_true.mp h.1)
      rw [List.map_cons, utf8_cons, utf8_cons, List.length_append, List.length_append, hFirst,
        hLength, List.all_append, hRest, Bool.and_true]
      exact ⟨rfl, List.all_eq_true.mpr hToken⟩

/-- A canonical name in lower case. -/
def lowerName (name : HeaderName) : HeaderName where
  text := name.text.map Char.toLower
  valid := by
    obtain ⟨hEmpty, hLength, hToken⟩ := name.valid
    obtain ⟨hSame, hLower⟩ := lower_token hToken
    exact ⟨fun h => hEmpty (List.map_eq_nil_iff.mp h), hSame ▸ hLength, hLower⟩

def lowerField (field : HeaderField) : HeaderField := { field with name := lowerName field.name }

/-- The fields of the trailers, with their names in lower case. -/
def lowerFields (fields : HyperHeaders) : HyperHeaders :=
  fields.map fun field => { field with name := field.name.map Char.toLower }

theorem new_lowerName (name : HeaderName) :
    HeaderName.new (name.text.map Char.toLower) = .ok (lowerName name) := by
  obtain ⟨hEmpty, hLength, hToken⟩ := (lowerName name).valid
  simp only [lowerName] at hEmpty hLength hToken
  rw [HeaderName.new, dif_neg hEmpty, dif_neg (Nat.not_lt.mpr hLength), dif_pos hToken]
  rfl

theorem fromBytes_bytes (value : HeaderValue) : HeaderValue.fromBytes value.bytes = .ok value := by
  rw [HeaderValue.fromBytes, dif_pos value.valid]
  exact congrArg Except.ok (HeaderValue.ext value.trimmed)

theorem trailersToMap_documented {http : HttpCrate} (hHttp : http.Documented)
    (trailers : Trailers) : trailersToMap http trailers = .ok (lowerFields (fieldsOf trailers)) := by
  rw [trailersToMap, headerBlockToMap, mapM_eq_ok, lowerFields, fieldsOf, List.map_map,
    List.forall₂_map_right_iff]
  refine List.forall₂_same.mpr fun field _ => ?_
  rw [hHttp.name, hHttp.value]
  rfl

theorem isForbiddenTrailerField_lower (name : Str) :
    isForbiddenTrailerField (name.map Char.toLower) = isForbiddenTrailerField name := by
  have hTwice : (name.map Char.toLower).map Char.toLower = name.map Char.toLower := by
    rw [List.map_map]
    exact List.map_congr_left fun c _ => toLower_toLower c
  simp only [isForbiddenTrailerField, hTwice]

/-- The validator does not look at the case of a name. -/
theorem validateTrailers_lower {block : HeaderBlock} (h : validateTrailers block {} = .ok ()) :
    validateTrailers (block.map lowerField) {} = .ok () := by
  obtain ⟨hAllowed, hFields, hBytes⟩ := validateTrailers_eq_ok.mp h
  refine validateTrailers_eq_ok.mpr ⟨fun field hField => ?_, ?_, ?_⟩
  · obtain ⟨original, hOriginal, rfl⟩ := List.mem_map.mp hField
    exact (isForbiddenTrailerField_lower _).trans (hAllowed original hOriginal)
  · rw [List.length_map]
    exact hFields
  · have hSame : trailerBlockBytes (block.map lowerField) = trailerBlockBytes block := by
      rw [trailerBlockBytes, List.map_map, trailerBlockBytes]
      refine congrArg List.sum (List.map_congr_left fun field _ => ?_)
      exact congrArg (· + field.value.bytes.length) (lower_token field.name.valid.2.2).1
    rw [hSame]
    exact hBytes

theorem hyperToHeaderBlock_lower (trailers : Trailers) :
    hyperToHeaderBlock (lowerFields (fieldsOf trailers)) = .ok (trailers.block.map lowerField) := by
  rw [hyperToHeaderBlock, mapM_eq_ok, lowerFields, fieldsOf, List.map_map,
    List.forall₂_map_left_iff, List.forall₂_map_right_iff]
  refine List.forall₂_same.mpr fun field _ => ?_
  simp only [Function.comp_apply, new_lowerName, fromBytes_bytes]
  rfl

theorem canonicalFields_lower (trailers : Trailers) :
    canonicalFields (lowerFields (fieldsOf trailers)) = lowerFields (fieldsOf trailers) := by
  simp only [canonicalFields, lowerFields, fieldsOf, List.map_map]
  refine List.map_congr_left fun field _ => ?_
  simp only [Function.comp_apply, field.value.trimmed]

/-- What comes back of validated trailers. -/
structure Returned (found : Option Trailers) (result : Except Str (Option Trailers)) : Prop where
  absent : found = none → result = .ok none
  empty : ∀ trailers, found = some trailers → trailers.block = [] → result = .ok none
  fields : ∀ trailers, found = some trailers → trailers.block ≠ [] →
    validateTrailers trailers.block {} = .ok () →
      ∃ back, result = .ok (some back) ∧ fieldsOf back = lowerFields (fieldsOf trailers)

theorem StoredAs.returned {trailers : Trailers} {result : Except Str (Option Trailers)}
    (h : StoredAs (lowerFields (fieldsOf trailers)) result) : Returned (some trailers) result := by
  refine ⟨nofun, fun other hOther hEmpty => ?_, fun other hOther hSome hValid => ?_⟩
  · obtain rfl := Option.some.inj hOther
    have hNil : lowerFields (fieldsOf trailers) = [] := by rw [fieldsOf, hEmpty]; rfl
    exact h.absent hNil
  · obtain rfl := Option.some.inj hOther
    have hLimits : (Trailers.withLimits (trailers.block.map lowerField) {}).isOk = true := by
      have hLower := validateTrailers_lower hValid
      unfold Trailers.withLimits
      split
      · rfl
      · rename_i e hError
        cases hLower.symm.trans hError
    have hFound := h.found ⟨_, hyperToHeaderBlock_lower trailers, hLimits⟩ fun hNil =>
      hSome (List.map_eq_nil_iff.mp (List.map_eq_nil_iff.mp hNil))
    rwa [canonicalFields_lower] at hFound

end Lower

/-! What the bridge keeps. -/

section Faithful

variable {β ε δ : Type} {B : HttpBody β ε δ} {s : BridgeRun β ε}

/-- The octets that the stream has yielded. -/
def octets (items : List StreamItem) : List UInt8 :=
  items.flatMap fun
    | some (.ok bytes) => bytes
    | _ => []

/-- The stream tells what the body tells, without empty frames, and the future
gives what stands behind the data. -/
structure Faithful (B : HttpBody β ε δ) (s : BridgeRun β ε) : Prop where
  items : s.items = s.answers.flatMap (mirror B)
  failed : ∀ e, some (.error e) ∈ s.answers →
    some (.error (HttpBodyDataStream.failure B e)) ∈ s.items
  trailers : Shaped s.answers → ∀ result, s.trailers = some result →
    ∃ item rest, afterData s.answers = item :: rest ∧ (item = none → result = .ok none) ∧
      ∀ map, item = some (.ok (.trailers map)) → StoredAs map result

theorem BridgeRun.Mirrors.faithful (h : s.Mirrors B) : Faithful B s := by
  refine ⟨h.items, fun e hError => ?_, fun hShaped result hResult => ?_⟩
  · rw [h.items]
    exact List.mem_flatMap.mpr ⟨_, hError, List.mem_cons_self⟩
  · have hKept := h.kept hShaped
    unfold BridgeRun.Kept at hKept
    cases hRest : afterData s.answers with
    | nil =>
        rw [hRest] at hKept
        cases hKept.2.2.symm.trans hResult
    | cons first rest =>
        rw [hRest] at hKept
        refine ⟨first, rest, rfl, ?_, ?_⟩
        · rintro rfl
          exact hKept.taken result hResult
        · rintro map rfl
          rw [hKept.taken result hResult]
          exact readTrailers_storedAs map

theorem octets_mirror {http : HttpCrate} (answers : List FrameItem) :
    octets (answers.flatMap (mirror (requestView http))) = dataOf answers := by
  rw [octets, List.flatMap_assoc, dataOf]
  refine List.flatMap_congr fun item _ => ?_
  rcases item with _ | ⟨e | frame⟩
  · rfl
  · rfl
  · cases frame with
    | trailers map => rfl
    | data bytes =>
        simp only [mirror]
        split_ifs with hEmpty
        · exact hEmpty.symm
        · exact List.append_nil _

end Faithful

/-- A request body on its way back: `r` is the same body, polled as a stream. -/
structure ReturnedBy (http : HttpCrate) (s : BridgeRun RequestBody RequestBodyHttpError)
    (r : FrameRun) : Prop where
  reached : (FrameRun.machine http).Reachable r
  answers : s.answers = r.answers
  octets : octets s.items = r.yielded
  trailers : ∀ result, s.trailers = some result →
    (∀ e rest, afterData s.answers ≠ some (.error e) :: rest) →
      r.plain.state = .complete ∧ Returned r.plain.completedTrailers result

theorem exists_returnedBy {http : HttpCrate} (hHttp : http.Documented)
    {s : BridgeRun RequestBody RequestBodyHttpError}
    (hReach : (BridgeRun.machine (requestView http) Built).Reachable s) :
    ∃ r, ReturnedBy http s r := by
  have hMirrors := BridgeRun.mirrors_of_reachable hReach
  have hBody : ∃ r, (FrameRun.machine http).Reachable r ∧ r.body = s.body ∧
      r.answers = s.answers := by
    refine @BridgeRun.body_invariant _ _ _ (requestView http) s Built
      (fun x => ∃ r, (FrameRun.machine http).Reachable r ∧ r.body = x.1 ∧ r.answers = x.2)
      ?_ ?_ ?_ hReach
    · exact fun body hBuilt => ⟨_, .start ⟨body, hBuilt, rfl⟩, rfl, rfl⟩
    · rintro ⟨body, answers⟩ ⟨r, hRun, rfl, rfl⟩
      exact ⟨_, .step (a := .pollFrame) hRun trivial rfl, rfl, rfl⟩
    · rintro wire ⟨body, answers⟩ ⟨r, hRun, rfl, rfl⟩
      exact ⟨_, .step (a := .fillSlot wire) hRun trivial rfl, rfl, rfl⟩
  obtain ⟨r, hRun, -, hAnswers⟩ := hBody
  refine ⟨r, hRun, hAnswers.symm, ?_, fun result hResult hNoError => ?_⟩
  · rw [hMirrors.items, octets_mirror, ← hAnswers]
    exact (FrameRun.tracks_of_reachable hRun).same
  · have hTells := FrameRun.tells_of_reachable hRun
    rw [← hAnswers] at hNoError
    have hShaped : Shaped s.answers := hAnswers ▸ hTells.shaped
    obtain ⟨item, rest, hRest, hNone, hMap⟩ := hMirrors.faithful.trailers hShaped result hResult
    rw [← hAnswers] at hRest
    obtain ⟨hPlain, hTold⟩ := hTells.trailers hNoError hRest
    refine ⟨hPlain, ?_⟩
    cases hFound : r.plain.completedTrailers with
    | none =>
        rw [hFound] at hTold
        exact ⟨fun _ => hNone hTold, nofun, nofun⟩
    | some trailers =>
        rw [hFound, toldEnd, trailersToMap_documented hHttp] at hTold
        exact (hMap _ hTold).returned

/-- A length is known where the body is at its end, or has an exact hint. -/
theorem bodyLength_responseFromHttpBody {β ε δ : Type} {B : HttpBody β ε δ} {code : Nat}
    {headers : HyperHeaders} {body : β} {response : BridgedResponse}
    (h : responseFromHttpBody B code headers body = .ok response) :
    response.body.bodyLength.known? =
      if B.isEndStream body then some 0 else (B.sizeHint body).exact := by
  simp only [responseFromHttpBody, bind_eq_ok] at h
  obtain ⟨status, -, block, -, declaration, -, h⟩ := h
  by_cases hEnd : B.isEndStream body = true
  · rw [if_pos hEnd] at h ⊢
    obtain rfl := Except.ok.inj h
    rfl
  · rw [if_neg hEnd] at h ⊢
    obtain rfl := Except.ok.inj h
    cases hHint : (B.sizeHint body).exact with
    | none => rfl
    | some length => rfl

/-- The bridge is faithful for every body and every schedule of polls, it declares
what is known of the length, and a request body comes back as it was. -/
theorem http_body_bridge_faithful :
    (∀ (β ε δ : Type) (B : HttpBody β ε δ) (Start : β → Prop) (s : BridgeRun β ε),
      (BridgeRun.machine B Start).Reachable s → Faithful B s) ∧
    (∀ (β ε δ : Type) (B : HttpBody β ε δ) (code : Nat) (headers : HyperHeaders) (body : β)
      (response : BridgedResponse), responseFromHttpBody B code headers body = .ok response →
        response.body.bodyLength.known? =
          if B.isEndStream body then some 0 else (B.sizeHint body).exact) ∧
    ∀ (http : HttpCrate), http.Documented →
      ∀ s, (BridgeRun.machine (requestView http) Built).Reachable s → ∃ r, ReturnedBy http s r :=
  ⟨fun _ _ _ _ _ _ hReach => (BridgeRun.mirrors_of_reachable hReach).faithful,
    fun _ _ _ _ _ _ _ _ h => bodyLength_responseFromHttpBody h,
    fun _ hHttp _ hReach => exists_returnedBy hHttp hReach⟩

/-- A body that tells what is in its script, and then the end. -/
def scripted (endStream : Bool) (hint : SizeHint) : HttpBody (List (BodyItem Str)) Str Empty where
  pollFrame
    | [] => (some none, [])
    | item :: rest => (some item, rest)
  outside d _ := nomatch d
  isEndStream _ := endStream
  sizeHint _ := hint
  display e := e

/-- The `http` crate on canonical fields. -/
def lowerHttp : HttpCrate where
  headerName bytes := (fromUtf8 bytes).map fun name => name.map Char.toLower
  headerValue := some

theorem lowerHttp_documented : lowerHttp.Documented :=
  ⟨fun name => by simp [lowerHttp], fun _ => rfl⟩

def trailerMap (value : String) : HyperHeaders := [⟨"x-sum", utf8 value⟩]

/-- A body with a chunk and trailers, polled to its end. -/
def trailersPolled : BridgeRun (List (BodyItem Str)) Str where
  stream := ⟨([], [some (.ok (.data [104])), some (.ok (.trailers (trailerMap "1")))]), none, true⟩
  items := [some (.ok [104]), none]
  trailers := some (readTrailers (trailerMap "1"))

/-- The chunk and the trailers arrive, and a request body is sent back. -/
theorem bridge_faithful_trailers :
    Faithful (scripted false {}) trailersPolled ∧
      (∃ r, ReturnedBy lowerHttp (.start FrameRun.chunkBody) r) ∧
      ∀ response, responseFromHttpBody (scripted false (.withExact 2)) 200 [] [] = .ok response →
        response.body.bodyLength.known? = some 2 := by
  have hStart : (BridgeRun.machine (scripted false {}) fun _ => True).Reachable
      (.start [some (.ok (.data [104])), some (.ok (.trailers (trailerMap "1")))]) :=
    .start ⟨_, trivial, rfl⟩
  have hData := hStart.step (a := .pollNext) trivial rfl
  have hEnd := hData.step (a := .pollNext) trivial rfl
  have hTrailers : (BridgeRun.machine (scripted false {}) fun _ => True).Reachable trailersPolled :=
    hEnd.step (a := .pollTrailers) trivial rfl
  have hSent : (BridgeRun.machine (requestView lowerHttp) Built).Reachable
      (.start FrameRun.chunkBody) := .start ⟨_, .incoming _ _ _ _ _, rfl⟩
  obtain ⟨hFaithful, hLength, hBack⟩ := http_body_bridge_faithful
  exact ⟨hFaithful _ _ _ _ _ _ hTrailers, hBack _ lowerHttp_documented _ hSent,
    fun response hResponse => hLength _ _ _ _ _ _ _ response hResponse⟩

/-- A body at its end is declared to be empty without an exact hint; an error
behind the trailers is not met; and a value loses the blanks around it. -/
theorem bridge_not_literal :
    (responseFromHttpBody (scripted true {}) 200 [] [] = .ok ⟨⟨200, by decide⟩, [], .empty⟩ ∧
      ((scripted true {}).sizeHint []).exact = none) ∧
    (∃ s, (BridgeRun.machine (scripted false {}) fun _ => True).Reachable s ∧
      s.body = [some (.error "late")] ∧ s.items = [none] ∧
      s.trailers = some (readTrailers (trailerMap "1")) ∧
      (readTrailers (trailerMap "1")).toOption.isSome = true) ∧
    ∃ trailers, readTrailers (trailerMap " 1 ") = .ok (some trailers) ∧
      fieldsOf trailers = trailerMap "1" ∧ fieldsOf trailers ≠ trailerMap " 1 " := by
  refine ⟨⟨by rfl, by rfl⟩, ?_, ?_⟩
  · have hStart : (BridgeRun.machine (scripted false {}) fun _ => True).Reachable
        (.start [some (.ok (.trailers (trailerMap "1"))), some (.error "late")]) :=
      .start ⟨_, trivial, rfl⟩
    have hEnd := hStart.step (a := .pollNext) trivial rfl
    have hTrailers := hEnd.step (a := .pollTrailers) trivial rfl
    exact ⟨_, hTrailers, rfl, rfl, rfl, by decide +kernel⟩
  · have hValid : ValidTrailers (trailerMap " 1 ") := ⟨_, by rfl, by decide +kernel⟩
    obtain ⟨trailers, hRead, hFields⟩ :=
      (readTrailers_storedAs (trailerMap " 1 ")).found hValid (by decide)
    have hTrim : canonicalFields (trailerMap " 1 ") = trailerMap "1" := by decide +kernel
    rw [hTrim] at hFields
    refine ⟨trailers, hRead, hFields, ?_⟩
    rw [hFields]
    decide

end Eggserve.Server
