import Eggserve.Json.Parser

/-! Log events and their JSON text, which is written by hand, piece by piece. -/
namespace Eggserve.Server.Ops
open Rust

inductive Severity where
  | debug
  | info
  | warn
  | error
  deriving DecidableEq, Repr

def Severity.display : Severity → String
  | debug => "DEBUG"
  | info => "INFO"
  | warn => "WARN"
  | error => "ERROR"

inductive EventKind where
  | processStarting
  | rootInitialized
  | listenerReady
  | shutdownRequested
  | drainingStarted
  | forcedShutdownStarted
  | shutdownComplete
  | connectionAccepted
  | connectionRejected
  | tlsHandshakeSuccess
  | tlsHandshakeFailure
  | tlsHandshakeTimeout
  | protocolNegotiated
  | headerTimeout
  | bodyReadTimeout
  | parserRejection
  | headerBytesRejected
  | requestTargetTooLong
  | serviceAdmissionRejected
  | keepAliveClosed
  | keepAliveIdleTimeout
  | maxRequestsClose
  | writeStallTimeout
  | connectionTotalTimeout
  | clientDisconnect
  | connectionPanic
  | requestCompleted
  | fileNotFound
  | fileDenied
  | fileError
  | dotfileDenied
  | symlinkDenied
  | rootEscapeDenied
  | bodyPolicyRejection
  | incompleteBodyClose
  | serviceInvocationSuppressed
  | serviceTimeout
  | serviceError
  | directoryListingLimit
  | responseStreamStarted
  | responseStreamCompleted
  | responseStreamLengthMismatch
  | responseStreamProducerError
  | responseStreamProducerPanic
  | responseStreamCancelled
  | deferredBodyDelegated
  | deferredBodyCompleted
  | deferredBodyAbandoned
  | deferredBodyTimeout
  | requestLifecyclePeerDisconnect
  | requestLifecycleRuntimeCancel
  | requestTrailerRejected
  | responseTrailerSuppressed
  | interimSent
  | interimRejected
  | expectationFailed
  | tunnelAccepted
  | tunnelRejected
  | tunnelClosed
  | tunnelUpgradeFailed
  | proxyProtocolAccepted
  | proxyProtocolRejected
  | forwardedMetadataAccepted
  | forwardedMetadataRejected
  | listenerTransientError
  | listenerPersistentError
  | resourceExhaustion
  | blockingWorkerSaturation
  | logSinkFailure
  deriving DecidableEq, Repr

def EventKind.display : EventKind → String
  | processStarting => "process_starting"
  | rootInitialized => "root_initialized"
  | listenerReady => "listener_ready"
  | shutdownRequested => "shutdown_requested"
  | drainingStarted => "draining_started"
  | forcedShutdownStarted => "forced_shutdown_started"
  | shutdownComplete => "shutdown_complete"
  | connectionAccepted => "connection_accepted"
  | connectionRejected => "connection_rejected"
  | tlsHandshakeSuccess => "tls_handshake_success"
  | tlsHandshakeFailure => "tls_handshake_failure"
  | tlsHandshakeTimeout => "tls_handshake_timeout"
  | protocolNegotiated => "protocol_negotiated"
  | headerTimeout => "header_timeout"
  | bodyReadTimeout => "body_read_timeout"
  | parserRejection => "parser_rejection"
  | headerBytesRejected => "header_bytes_rejected"
  | requestTargetTooLong => "request_target_too_long"
  | serviceAdmissionRejected => "service_admission_rejected"
  | keepAliveClosed => "keep_alive_closed"
  | keepAliveIdleTimeout => "keep_alive_idle_timeout"
  | maxRequestsClose => "max_requests_close"
  | writeStallTimeout => "write_stall_timeout"
  | connectionTotalTimeout => "connection_total_timeout"
  | clientDisconnect => "client_disconnect"
  | connectionPanic => "connection_panic"
  | requestCompleted => "request_completed"
  | fileNotFound => "file_not_found"
  | fileDenied => "file_denied"
  | fileError => "file_error"
  | dotfileDenied => "dotfile_denied"
  | symlinkDenied => "symlink_denied"
  | rootEscapeDenied => "root_escape_denied"
  | bodyPolicyRejection => "body_policy_rejection"
  | incompleteBodyClose => "incomplete_body_close"
  | serviceInvocationSuppressed => "service_invocation_suppressed"
  | serviceTimeout => "service_timeout"
  | serviceError => "service_error"
  | directoryListingLimit => "directory_listing_limit"
  | responseStreamStarted => "response_stream_started"
  | responseStreamCompleted => "response_stream_completed"
  | responseStreamLengthMismatch => "response_stream_length_mismatch"
  | responseStreamProducerError => "response_stream_producer_error"
  | responseStreamProducerPanic => "response_stream_producer_panic"
  | responseStreamCancelled => "response_stream_cancelled"
  | deferredBodyDelegated => "deferred_body_delegated"
  | deferredBodyCompleted => "deferred_body_completed"
  | deferredBodyAbandoned => "deferred_body_abandoned"
  | deferredBodyTimeout => "deferred_body_timeout"
  | requestLifecyclePeerDisconnect => "request_lifecycle_peer_disconnect"
  | requestLifecycleRuntimeCancel => "request_lifecycle_runtime_cancel"
  | requestTrailerRejected => "request_trailer_rejected"
  | responseTrailerSuppressed => "response_trailer_suppressed"
  | interimSent => "interim_sent"
  | interimRejected => "interim_rejected"
  | expectationFailed => "expectation_failed"
  | tunnelAccepted => "tunnel_accepted"
  | tunnelRejected => "tunnel_rejected"
  | tunnelClosed => "tunnel_closed"
  | tunnelUpgradeFailed => "tunnel_upgrade_failed"
  | proxyProtocolAccepted => "proxy_protocol_accepted"
  | proxyProtocolRejected => "proxy_protocol_rejected"
  | forwardedMetadataAccepted => "forwarded_metadata_accepted"
  | forwardedMetadataRejected => "forwarded_metadata_rejected"
  | listenerTransientError => "listener_transient_error"
  | listenerPersistentError => "listener_persistent_error"
  | resourceExhaustion => "resource_exhaustion"
  | blockingWorkerSaturation => "blocking_worker_saturation"
  | logSinkFailure => "log_sink_failure"

inductive Field where
  | bool (key : Str) (value : Bool)
  | i64 (key : Str) (value : Int64)
  | u64 (key : Str) (value : UInt64)
  | str (key value : Str)
  deriving DecidableEq

structure Event where
  schemaVersion : UInt32
  severity : Severity
  event : EventKind
  timestamp : Str
  message : Str
  connectionId : Option UInt64
  requestSeq : Option UInt32
  fields : List Field
  deriving DecidableEq

/-! The writer. -/

def hexLower (value shift : Nat) : Char :=
  ("0123456789abcdef" : Str).getD ((value >>> shift) &&& 0xf) '0'

/-- The body of the loop of `escape_json_string_into`. -/
def escapeJsonChar (c : Char) : Str :=
  if c = '"' then ['\\', '"']
  else if c = '\\' then ['\\', '\\']
  else if c = '\n' then ['\\', 'n']
  else if c = '\r' then ['\\', 'r']
  else if c = '\t' then ['\\', 't']
  else if c.toNat < 0x20 then ['\\', 'u'] ++ [12, 8, 4, 0].map (hexLower c.toNat)
  else [c]

def escapeJsonString (s : Str) : Str := s.flatMap escapeJsonChar

def renderField : Field → Str
  | .bool k v =>
      ['{'] ++ ['"'] ++ escapeJsonString k ++ "\":".toList ++ (if v then "true" else "false").toList ++
        ['}']
  | .i64 k v =>
      ['{'] ++ ['"'] ++ escapeJsonString k ++ "\":".toList ++ displayInt v.toInt ++ ['}']
  | .u64 k v =>
      ['{'] ++ ['"'] ++ escapeJsonString k ++ "\":".toList ++ decimal v.toNat ++ ['}']
  | .str k v =>
      ['{'] ++ ['"'] ++ escapeJsonString k ++ "\":\"".toList ++ escapeJsonString v ++ ['"'] ++ ['}']

/-- The loop over the fields from number `i` on. -/
def renderFields (out : Str) (i : Nat) : List Field → Str
  | [] => out
  | f :: fields =>
      let out := if i > 0 then out ++ [','] else out
      renderFields (out ++ renderField f) (i + 1) fields

def eventToJson (event : Event) : Str :=
  let out := ['{']
  let out := out ++ "\"schema_version\":".toList ++ decimal event.schemaVersion.toNat
  let out := out ++ ",\"severity\":\"".toList ++ event.severity.display.toList ++ ['"']
  let out := out ++ ",\"event\":\"".toList ++ event.event.display.toList ++ ['"']
  let out := out ++ ",\"timestamp\":\"".toList ++ escapeJsonString event.timestamp ++ ['"']
  let out := out ++ ",\"message\":\"".toList ++ escapeJsonString event.message ++ ['"']
  let out :=
    match event.connectionId with
    | some cid => out ++ ",\"connection_id\":".toList ++ decimal cid.toNat
    | none => out
  let out :=
    match event.requestSeq with
    | some seq => out ++ ",\"request_seq\":".toList ++ decimal seq.toNat
    | none => out
  let out :=
    if event.fields.isEmpty then out
    else renderFields (out ++ ",\"fields\":[".toList) 0 event.fields ++ [']']
  out ++ ['}']

/-! What the text says. -/

def integer (n : Int) : Json.Value := .number ⟨n, 0⟩

/-- A field is an object of one member. -/
def Field.value : Field → Json.Value
  | .bool k v => .object [(k, .bool v)]
  | .i64 k v => .object [(k, integer v.toInt)]
  | .u64 k v => .object [(k, integer v.toNat)]
  | .str k v => .object [(k, .string v)]

/-- Two members and the list of fields are there only when they are set. -/
def Event.value (event : Event) : Json.Value :=
  .object <|
    ("schema_version".toList, integer event.schemaVersion.toNat) ::
      ([("severity".toList, .string event.severity.display.toList),
        ("event".toList, .string event.event.display.toList),
        ("timestamp".toList, .string event.timestamp),
        ("message".toList, .string event.message)] ++
      event.connectionId.toList.map (fun cid => ("connection_id".toList, integer cid.toNat)) ++
      event.requestSeq.toList.map (fun seq => ("request_seq".toList, integer seq.toNat)) ++
      if event.fields = [] then [] else [("fields".toList, .array (event.fields.map Field.value))])

/-! Strings. -/

/-- An escaped character is read as the code units of the character. -/
theorem readUnits_escapeJsonChar (c : Char) (rest : Str) :
    Json.readUnits (escapeJsonChar c ++ rest) =
      (Json.readUnits rest).map fun (units, rest) => (encodeUtf16Char c ++ units, rest) := by
  unfold escapeJsonChar
  split_ifs with hQuote hBackslash hLine hReturn hTab hControl
  · subst hQuote
    exact Json.readUnits_letter (by decide) rfl rest
  · subst hBackslash
    exact Json.readUnits_letter (by decide) rfl rest
  · subst hLine
    exact Json.readUnits_letter (by decide) rfl rest
  · subst hReturn
    exact Json.readUnits_letter (by decide) rfl rest
  · subst hTab
    exact Json.readUnits_letter (by decide) rfl rest
  · have hAll : ∀ n < 0x20, Json.hexUnit ([12, 8, 4, 0].map (hexLower n)) = some n := by
      decide +kernel
    have hUnit : encodeUtf16Char c = [c.toNat] := if_pos (by omega)
    rw [hUnit]
    exact Json.readUnits_hex (hAll c.toNat hControl) rest
  · exact Json.readUnits_plain hQuote hControl hBackslash rest

theorem readsBack_escapeJsonString : Json.ReadsBack escapeJsonString := by
  intro s rest
  have hUnits : Json.readUnits (escapeJsonString s ++ '"' :: rest) = some (encodeUtf16 s, rest) := by
    induction s with
    | nil =>
        rw [escapeJsonString, List.flatMap_nil, List.nil_append, Json.readUnits_close]
        rfl
    | cons c s ih =>
        rw [escapeJsonString, List.flatMap_cons, List.append_assoc, readUnits_escapeJsonChar,
          ← escapeJsonString, ih]
        rfl
  rw [Json.readString, hUnits, Option.bind_some]
  simp only [fromUtf16_encodeUtf16, Option.map_some]

theorem printable_escapeJsonChar (c : Char) : Json.Printable (escapeJsonChar c) := by
  have hPair (letter : Char) (h : 0x20 ≤ letter.toNat) : Json.Printable ['\\', letter] :=
    .cons (by decide) (.cons h fun d hd => by cases hd)
  unfold escapeJsonChar
  split_ifs with hQuote hBackslash hLine hReturn hTab hControl
  · exact hPair '"' (by decide)
  · exact hPair '\\' (by decide)
  · exact hPair 'n' (by decide)
  · exact hPair 'r' (by decide)
  · exact hPair 't' (by decide)
  · have hAll : ∀ n < 0x20, ∀ d ∈ ['\\', 'u'] ++ [12, 8, 4, 0].map (hexLower n), 0x20 ≤ d.toNat := by
      decide +kernel
    exact hAll c.toNat hControl
  · exact .cons (Nat.not_lt.mp hControl) fun d hd => by cases hd

theorem printable_escapeJsonString (s : Str) : Json.Printable (escapeJsonString s) := by
  intro d hd
  obtain ⟨c, -, hMem⟩ := List.mem_flatMap.mp hd
  exact printable_escapeJsonChar c d hMem

/-! The writer writes the compact text. -/

/-- A character that is written as it is. -/
def isPlain (c : Char) : Bool := c ≠ '"' && c ≠ '\\' && 0x20 ≤ c.toNat

theorem escapeJsonChar_of_plain {c : Char} (h : isPlain c = true) : escapeJsonChar c = [c] := by
  simp only [isPlain, Bool.and_eq_true, decide_eq_true_eq] at h
  obtain ⟨⟨hQuote, hBackslash⟩, hLow⟩ := h
  have hLine : c ≠ '\n' := by
    rintro rfl
    exact absurd hLow (by decide)
  have hReturn : c ≠ '\r' := by
    rintro rfl
    exact absurd hLow (by decide)
  have hTab : c ≠ '\t' := by
    rintro rfl
    exact absurd hLow (by decide)
  rw [escapeJsonChar, if_neg hQuote, if_neg hBackslash, if_neg hLine, if_neg hReturn, if_neg hTab,
    if_neg (Nat.not_lt.mpr hLow)]

theorem escapeJsonString_of_plain {s : Str} (h : s.all isPlain = true) : escapeJsonString s = s := by
  induction s with
  | nil => rfl
  | cons c s ih =>
      rw [List.all_cons, Bool.and_eq_true] at h
      rw [escapeJsonString, List.flatMap_cons, escapeJsonChar_of_plain h.1, ← escapeJsonString,
        ih h.2, List.singleton_append]

/-- A literal is compared through its list of characters. -/
theorem escapeJsonString_literal {chars : Str} (h : chars.all isPlain = true) :
    escapeJsonString (String.ofList chars).toList = (String.ofList chars).toList := by
  rw [String.toList_ofList]
  exact escapeJsonString_of_plain h

theorem escape_severity (severity : Severity) :
    escapeJsonString severity.display.toList = severity.display.toList := by
  cases severity <;> exact escapeJsonString_literal rfl

theorem escape_kind (kind : EventKind) :
    escapeJsonString kind.display.toList = kind.display.toList := by
  cases kind <;> exact escapeJsonString_literal rfl

/-- A member behind another one. -/
def next (key : Str) (value : Json.Value) : Str :=
  ',' :: Json.compactMember escapeJsonString (key, value)

theorem next_string {literal key : Str} (hKey : key.all isPlain = true)
    (hLiteral : literal = ',' :: '"' :: (key ++ ['"', ':', '"'])) {s text : Str}
    (hText : escapeJsonString s = text) : literal ++ text ++ ['"'] = next key (.string s) := by
  rw [next, Json.compactMember, Json.quote, escapeJsonString_of_plain hKey, Json.compact, Json.quote,
    hText, hLiteral]
  simp

theorem compact_integer (n : Int) :
    Json.compact escapeJsonString (integer n) = displayInt n := by
  rw [integer, Json.compact, Json.compactNumber, if_pos rfl, List.append_nil]

theorem displayInt_natCast (n : Nat) : displayInt n = decimal n :=
  if_neg (Int.not_lt.mpr (Int.natCast_nonneg n))

theorem next_integer {literal key : Str} (hKey : key.all isPlain = true)
    (hLiteral : literal = ',' :: '"' :: (key ++ ['"', ':'])) (n : Nat) :
    literal ++ decimal n = next key (integer n) := by
  rw [next, Json.compactMember, Json.quote, escapeJsonString_of_plain hKey, compact_integer,
    displayInt_natCast, hLiteral]
  simp

theorem compact_single (key : Str) (value : Json.Value) :
    Json.compact escapeJsonString (.object [(key, value)]) =
      '{' :: '"' :: (escapeJsonString key ++
        '"' :: ':' :: (Json.compact escapeJsonString value ++ ['}'])) := by
  simp [Json.compact, Json.compactMembers, Json.quote]

theorem renderField_eq (field : Field) :
    renderField field = Json.compact escapeJsonString field.value := by
  have hColon : "\":".toList = ['"', ':'] := String.toList_ofList
  have hString : "\":\"".toList = ['"', ':', '"'] := String.toList_ofList
  cases field with
  | bool k v =>
      rw [renderField, Field.value, compact_single, hColon, Json.compact]
      cases v <;> simp
  | i64 k v =>
      rw [renderField, Field.value, compact_single, hColon, compact_integer]
      simp
  | u64 k v =>
      rw [renderField, Field.value, compact_single, hColon, compact_integer, displayInt_natCast]
      simp
  | str k v =>
      rw [renderField, Field.value, compact_single, hString, Json.compact, Json.quote]
      simp

theorem renderFields_succ (out : Str) (i : Nat) (fields : List Field) :
    renderFields out (i + 1) fields =
      out ++ fields.flatMap fun field => ',' :: renderField field := by
  induction fields generalizing out i with
  | nil => exact (List.append_nil _).symm
  | cons field fields ih =>
      rw [renderFields, if_pos (Nat.succ_pos i), ih, List.flatMap_cons]
      simp only [List.append_assoc, List.cons_append, List.nil_append]

theorem renderFields_zero (out : Str) (field : Field) (fields : List Field) :
    renderFields out 0 (field :: fields) =
      out ++ Json.compactItems escapeJsonString ((field :: fields).map Field.value) := by
  rw [renderFields, if_neg (Nat.lt_irrefl 0), renderFields_succ, List.map_cons,
    Json.compactItems_eq, List.append_assoc, List.flatMap_map]
  simp only [renderField_eq]

theorem next_severity (severity : Severity) :
    ",\"severity\":\"".toList ++ severity.display.toList ++ ['"'] =
      next "severity".toList (.string severity.display.toList) := by
  have hLiteral : ",\"severity\":\"".toList = _ := String.toList_ofList
  have hKey : "severity".toList = _ := String.toList_ofList
  rw [hLiteral, hKey]
  exact next_string (by rfl) (by rfl) (escape_severity severity)

theorem next_event (kind : EventKind) :
    ",\"event\":\"".toList ++ kind.display.toList ++ ['"'] =
      next "event".toList (.string kind.display.toList) := by
  have hLiteral : ",\"event\":\"".toList = _ := String.toList_ofList
  have hKey : "event".toList = _ := String.toList_ofList
  rw [hLiteral, hKey]
  exact next_string (by rfl) (by rfl) (escape_kind kind)

theorem next_timestamp (timestamp : Str) :
    ",\"timestamp\":\"".toList ++ escapeJsonString timestamp ++ ['"'] =
      next "timestamp".toList (.string timestamp) := by
  have hLiteral : ",\"timestamp\":\"".toList = _ := String.toList_ofList
  have hKey : "timestamp".toList = _ := String.toList_ofList
  rw [hLiteral, hKey]
  exact next_string (by rfl) (by rfl) rfl

theorem next_message (message : Str) :
    ",\"message\":\"".toList ++ escapeJsonString message ++ ['"'] =
      next "message".toList (.string message) := by
  have hLiteral : ",\"message\":\"".toList = _ := String.toList_ofList
  have hKey : "message".toList = _ := String.toList_ofList
  rw [hLiteral, hKey]
  exact next_string (by rfl) (by rfl) rfl

theorem next_connection_id (cid : Nat) :
    ",\"connection_id\":".toList ++ decimal cid =
      next "connection_id".toList (integer cid) := by
  have hLiteral : ",\"connection_id\":".toList = _ := String.toList_ofList
  have hKey : "connection_id".toList = _ := String.toList_ofList
  rw [hLiteral, hKey]
  exact next_integer (by rfl) (by rfl) cid

theorem next_request_seq (seq : Nat) :
    ",\"request_seq\":".toList ++ decimal seq =
      next "request_seq".toList (integer seq) := by
  have hLiteral : ",\"request_seq\":".toList = _ := String.toList_ofList
  have hKey : "request_seq".toList = _ := String.toList_ofList
  rw [hLiteral, hKey]
  exact next_integer (by rfl) (by rfl) seq

theorem first_schema_version (version : Nat) :
    "\"schema_version\":".toList ++ decimal version =
      Json.compactMember escapeJsonString ("schema_version".toList, integer version) := by
  have hLiteral : "\"schema_version\":".toList = _ := String.toList_ofList
  have hKey : "schema_version".toList = _ := String.toList_ofList
  rw [Json.compactMember, Json.quote, hLiteral, hKey, escapeJsonString_of_plain rfl, compact_integer,
    displayInt_natCast]
  rfl

theorem next_fields (items : List Json.Value) :
    ",\"fields\":[".toList ++ Json.compactItems escapeJsonString items ++ [']'] =
      next "fields".toList (.array items) := by
  have hLiteral : ",\"fields\":[".toList = _ := String.toList_ofList
  have hKey : "fields".toList = _ := String.toList_ofList
  rw [next, Json.compactMember, Json.quote, hLiteral, hKey, escapeJsonString_of_plain rfl,
    Json.compact]
  simp

/-- The hand-written text is the compact text of the value. -/
theorem eventToJson_eq (event : Event) :
    eventToJson event = Json.compact escapeJsonString event.value := by
  have hString {out literal text piece : Str} (h : literal ++ text ++ ['"'] = piece) :
      out ++ literal ++ text ++ ['"'] = out ++ piece := by
    rw [← h]
    simp only [List.append_assoc]
  have hInteger {out literal text piece : Str} (h : literal ++ text = piece) :
      out ++ literal ++ text = out ++ piece := by
    rw [← h, List.append_assoc]
  have hFields (out : Str) : (if event.fields.isEmpty then out
      else renderFields (out ++ ",\"fields\":[".toList) 0 event.fields ++ [']']) =
        out ++ (if event.fields = [] then []
          else [("fields".toList, Json.Value.array (event.fields.map Field.value))]).flatMap
            fun member => next member.1 member.2 := by
    cases event.fields with
    | nil => exact (List.append_nil _).symm
    | cons field fields =>
        rw [if_neg (by simp), if_neg (List.cons_ne_nil _ _), renderFields_zero, List.flatMap_singleton,
          ← next_fields]
        simp only [List.append_assoc]
  rw [eventToJson, Event.value, Json.compact, Json.compactMembers_eq,
    hInteger (first_schema_version _), hString (next_severity _), hString (next_event _),
    hString (next_timestamp _), hString (next_message _), hFields, List.flatMap_append,
    List.flatMap_append, List.flatMap_append]
  cases event.connectionId with
  | none =>
      cases event.requestSeq with
      | none => simp [next]
      | some seq =>
          dsimp only
          rw [hInteger (next_request_seq _)]
          simp [next]
  | some cid =>
      dsimp only
      rw [hInteger (next_connection_id _)]
      cases event.requestSeq with
      | none => simp [next]
      | some seq =>
          dsimp only
          rw [hInteger (next_request_seq _)]
          simp [next]

/-- An event is one line, which a parser reads as one object with the members of the event. -/
theorem events_are_single_json_lines (event : Event) :
    '\n' ∉ eventToJson event ∧ '\r' ∉ eventToJson event ∧
      Json.parse (eventToJson event) = some event.value := by
  rw [eventToJson_eq]
  have hPrintable := Json.printable_compact printable_escapeJsonString event.value
  refine ⟨?_, ?_, Json.parse_compact readsBack_escapeJsonString event.value⟩
  · exact fun hLine => absurd (hPrintable _ hLine) (by decide)
  · exact fun hReturn => absurd (hPrintable _ hReturn) (by decide)

end Eggserve.Server.Ops
