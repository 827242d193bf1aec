import Eggserve.Primitives.Canonical.RuntimeError
import Eggserve.Primitives.RequestHead
import Eggserve.Server.BodyFraming
import Eggserve.Static.Fs.Listing

/-! The static service: one request in, one response out. A file, a listing, a
redirect and an error each build their headers in their own way. -/
namespace Eggserve.Primitives
open Rust

def HeaderError.display : HeaderError → String
  | invalidName => "invalid header name"
  | invalidValue => "invalid header value (contains a control character)"
  | nameTooLong => "header name too long"

def ResponseConstructionError.display : ResponseConstructionError → Str
  | invalidHeader error => "invalid header: ".toList ++ error.display
  | forbiddenFramingHeader name => "forbidden framing header: ".toList ++ name
  | fileStreamLimit => "file stream admission limit reached"

def BodySourceError.display : BodySourceError → String
  | invalidRange => "invalid byte range"
  | alreadyConsumed => "resolved file already consumed"

namespace StatusCode

def movedPermanently : StatusCode := ⟨301, by decide⟩

def badRequest : StatusCode := ⟨400, by decide⟩

def forbidden : StatusCode := ⟨403, by decide⟩

def notFound : StatusCode := ⟨404, by decide⟩

def methodNotAllowed : StatusCode := ⟨405, by decide⟩

def new (code : Nat) : Option StatusCode :=
  if h : 100 ≤ code ∧ code ≤ 599 then some ⟨code, h⟩ else none

end StatusCode

/-- Whether a directory without an index file is listed. -/
inductive DirectoryListingPolicy where
  | disabled
  | enabled
  deriving DecidableEq, Repr

end Eggserve.Primitives

namespace Eggserve.Static
open Rust Posix Eggserve.Primitives Eggserve.Server

/-- The whole policy of a root: what resolution reads and what the service reads. -/
structure ServicePolicy extends StaticPolicy where
  directoryListing : DirectoryListingPolicy := .disabled
  staticMetadata : StaticMetadataPolicy := {}

/-- A root as one request finds it: what each call of the resolver and of the
lister comes to. -/
structure SecureRoot (ν : Type) where
  policy : ServicePolicy
  resolve : ConfinedPath → ResolvedResource ν
  resolveChild : ResolvedDirectory ν → Str → ResolvedResource ν
  list : ResolvedDirectory ν → Nat → Except Errno (List ListingEntry)

namespace SecureRoot

variable {ν : Type}

def resolveUri (root : SecureRoot ν) (uri : Str) : Except PathRejection (ResolvedResource ν) := do
  let confined ← ConfinedPath.parse uri (rootPathPolicy root.policy.toStaticPolicy)
  return root.resolve confined

/-- A root that denies links, on a tree that nobody rewrites. -/
def onTree (tree : Tree ν Attributes) (pinned : PinnedRoot tree.unchanged)
    (policy : ServicePolicy) : SecureRoot ν where
  policy := { policy with symlinks := .denied }
  resolve confined :=
    (resolveFdRelative tree.unchanged pinned.rootFd pinned.canonicalRoot confined.components
      { policy with symlinks := .denied } confined.pathPolicy.rejectBackslash ⟨0, []⟩).1
  resolveChild dir child :=
    (RootGuard.resolveChild (fun _ _ _ p => (.notFound, p)) pinned dir child
      { policy with symlinks := .denied } ⟨0, []⟩).1
  list dir maxEntries :=
    (listDirectoryFd tree.unchanged dir.dirFd (tree.scan dir.dirFd)
      { policy with symlinks := .denied } maxEntries ⟨0, []⟩).1

end SecureRoot

/-- The configuration of the service and its root. -/
structure StaticService (ν : Type) where
  root : SecureRoot ν
  defaultContentType : Str := "application/octet-stream"
  extraResponseHeaders : List (Str × Str) := []
  errorPolicy : ErrorRepresentationPolicy := .minimal
  maxListingEntries : Nat := 4096
  maxListingResponseBytes : Nat := 1024 * 1024
  /-- The bound is a machine word. -/
  maxListingResponseBytes_le : maxListingResponseBytes ≤ u64Max := by decide

def internal (message : Str) : ServiceError := ⟨500, message⟩

/-- What building a response fails with, as the service reports it. -/
def constructed {α : Type} (result : Except ResponseConstructionError α) :
    Except ServiceError α :=
  result.mapError fun error => internal error.display

/-- `ResponseBuilder::header`. -/
def builderHeader (headers : HeaderBlock) (name value : Str) :
    Except ResponseConstructionError HeaderBlock :=
  (headers.pushStr name value).mapError .invalidHeader

def builderBody (status : StatusCode) (headers : HeaderBlock) (body : ResponseBody) : Response where
  status := status
  headers := headers
  body := some body
  normalized := false

/-! Plans become responses. -/

/-- The fields of a plan, validated one by one. -/
def builderHeaders (headers : HeaderBlock) (fields : List ResponseHeader) :
    Except ResponseConstructionError HeaderBlock :=
  fields.foldlM (fun headers field => builderHeader headers field.name field.value) headers

/-- The body of a response for a plan. A plan for `HEAD` announces the length
that its own headers state. -/
def planBody (plan : StaticResponsePlan) (source : BodySource) (status : StatusCode)
    (isHead : Bool) : ResponseBody :=
  match plan.body with
  | .empty =>
      if isHead && status.permitsPayloadBody then
        (((plan.headers.get "content-length").bind parseU64).map .emptyWithLength).getD .empty
      else .empty
  | .fullBytes bytes => .bytes bytes
  | .fileFull | .fileRange _ _ => .file source

def responseFromPlan (plan : StaticResponsePlan) (source : BodySource) (isHead : Bool) :
    Except ServiceError Response :=
  match StatusCode.new plan.status.code with
  | none => .error (internal "static planner returned invalid status")
  | some status => do
      let headers ← constructed (builderHeaders [] plan.headers.headers)
      constructed
        (normalizeResponse (builderBody status headers (planBody plan source status isHead)) isHead)

def pathRejectionResponse : PathRejection → StatusCode × String
  | .malformedPercentEncoding | .invalidUtf8 | .nulByte | .controlCharacter | .empty
  | .unsupportedUriForm | .tooLong => (.badRequest, "400 Bad Request\n")
  | _ => (.forbidden, "403 Forbidden\n")

/-! Listings as documents. -/

/-- `char::is_control`: the Unicode category `Cc`. -/
def isControl (c : Char) : Bool := c.toNat < 0x20 || 0x7f ≤ c.toNat && c.toNat ≤ 0x9f

def escapeChar (c : Char) : Str :=
  if c = '&' then "&amp;"
  else if c = '<' then "&lt;"
  else if c = '>' then "&gt;"
  else if c = '"' then "&quot;"
  else if c = '\'' then "&#x27;"
  else if !isControl c then [c]
  else "&#x".toList ++ (Nat.toDigits 16 c.toNat).map Char.toUpper ++ [';']

def htmlEscape (value : Str) : Str := value.flatMap escapeChar

def listingPrefix : String :=
  "<!DOCTYPE html>\n<html>\n<head>\n<meta charset=\"utf-8\">\n" ++
    "<title>Directory listing</title>\n</head>\n<body>\n<h1>Directory listing</h1>\n<ul>\n"

def listingSuffix : String := "</ul>\n</body>\n</html>\n"

def listingLink (entry : ListingEntry) : Str :=
  let visible := htmlEscape entry.name
  let href := htmlEscape entry.href
  if entry.isDir then
    "<li><a href=\"".toList ++ href ++ "/\">".toList ++ visible ++ "/</a></li>\n".toList
  else "<li><a href=\"".toList ++ href ++ "\">".toList ++ visible ++ "</a></li>\n".toList

/-- The loop over the entries. A sum that does not fit the machine is beyond
every bound. -/
def renderLinks (maxResponseBytes : Nat) : List ListingEntry → Str → Except ServiceError Str
  | [], html => .ok html
  | entry :: entries, html =>
      if (utf8 html).length + (utf8 (listingLink entry)).length +
          (utf8 listingSuffix).length > maxResponseBytes then
        .error (internal "directory listing exceeds configured bound")
      else renderLinks maxResponseBytes entries (html ++ listingLink entry)

def renderDirectoryListing (entries : List ListingEntry) (maxResponseBytes : Nat) :
    Except ServiceError (List UInt8) :=
  if (utf8 listingPrefix).length + (utf8 listingSuffix).length > maxResponseBytes then
    .error (internal "directory listing exceeds configured bound")
  else do
    let html ← renderLinks maxResponseBytes entries listingPrefix
    return utf8 (html ++ listingSuffix)

/-- The plan of a listing for `GET` leaves the length to the body. -/
def planDirectoryListing (contentLength : Nat) (isHead : Bool) : StaticResponsePlan where
  status := .ok
  headers := ((((HeaderMapPlan.new.push "content-type" "text/html; charset=utf-8").pushSome
    "content-length" (if isHead then some (decimal contentLength) else none)).push
    "x-content-type-options" "nosniff").push
    "content-security-policy" "default-src 'none'; base-uri 'none'; form-action 'none'").push
    "referrer-policy" "no-referrer"
  body := if isHead then .empty else .fullBytes []

/-! The request headers that the planner reads. -/

/-- Lines of a list combine. -/
def joinedLines (existing : Option Str) (text : Str) : Option Str :=
  match existing with
  | some existing => some (existing ++ ", ".toList ++ text)
  | none => some text

/-- Of a single value the first line counts. -/
def firstLine (existing : Option Str) (text : Str) : Option Str := some (existing.getD text)

/-- The body of the loop of `conditional_headers`; a value that is no text is
passed over. -/
def conditionalHeader (values : RequestConditions) (field : HeaderField) : RequestConditions :=
  match field.value.toStr with
  | none => values
  | some text =>
      if field.name.is "if-match" then
        { values with ifMatch := joinedLines values.ifMatch text }
      else if field.name.is "if-unmodified-since" then
        { values with ifUnmodifiedSince := firstLine values.ifUnmodifiedSince text }
      else if field.name.is "if-none-match" then
        { values with ifNoneMatch := joinedLines values.ifNoneMatch text }
      else if field.name.is "if-modified-since" then
        { values with ifModifiedSince := firstLine values.ifModifiedSince text }
      else if field.name.is "range" then
        { values with rangeHeader := joinedLines values.rangeHeader text }
      else if field.name.is "if-range" then
        { values with ifRange := firstLine values.ifRange text }
      else values

def conditionalHeaders (headers : HeaderBlock) : RequestConditions :=
  headers.foldl conditionalHeader {}

namespace StaticService

variable {ν : Type} (dates : HttpDate) (service : StaticService ν)

/-- The names that the plan had before the loop are skipped. -/
def appendExtraHeaders (headers : HeaderMapPlan) : HeaderMapPlan :=
  let existing := headers.headers.map fun header => header.name.map Char.toLower
  ⟨headers.headers ++ (service.extraResponseHeaders.filter fun extra =>
    !existing.any fun entry => eqIgnoreAsciiCase entry extra.1).map
      fun extra => ⟨extra.1, extra.2⟩⟩

def fileResponse (file : OpenedFile ν) (method : ReadOnlyMethod) (request : RequestHead) :
    MayPanic (Except ServiceError Response) := do
  let conditions := conditionalHeaders request.headers
  let detected := mimeForPath file.safeRelativeComponents
  let contentType :=
    if detected = "application/octet-stream" then service.defaultContentType else detected
  let plan ← planFileResponseWithPreconditionsAndMetadata dates method file.metadata contentType
    conditions service.root.policy.staticMetadata
  let plan := { plan with headers := service.appendExtraHeaders plan.headers }
  return do
    let source ← (file.toResolvedFile.intoBody plan).mapError fun error => internal error.display
    responseFromPlan plan source (method = .head)

/-- One turn of the loop of `error_response`; a name that is there already is
skipped, and a header that is not valid is dropped. -/
def pushExtraHeader (headers : HeaderBlock) (extra : Str × Str) : HeaderBlock :=
  if headers.contains extra.1 then headers
  else (headers.pushStr extra.1 extra.2).toOption.getD headers

/-- `if condition { builder = builder.header(name, value)?; }`. -/
def headerIf (condition : Bool) (headers : HeaderBlock) (name value : Str) :
    Except ServiceError HeaderBlock :=
  if condition then constructed (builderHeader headers name value) else .ok headers

/-- An error to `HEAD` announces the length of the text that `GET` gets. -/
def errorBody (text : String) (isHead : Bool) : ResponseBody :=
  if service.errorPolicy = .minimal then
    if isHead then .emptyWithLength (utf8 text).length else .bytes (utf8 text)
  else .empty

def errorResponse (status : StatusCode) (text : String) (isHead methodNotAllowed : Bool) :
    Except ServiceError Response := do
  let headers ← headerIf (service.errorPolicy = .minimal) [] "content-type"
    "text/plain; charset=utf-8"
  let headers ← headerIf methodNotAllowed headers "allow" "GET, HEAD"
  let headers := service.extraResponseHeaders.foldl pushExtraHeader headers
  constructed
    (normalizeResponse (builderBody status headers (service.errorBody text isHead)) isHead)

def directoryResponse (directory : ResolvedDirectory ν) (method : ReadOnlyMethod) :
    Except ServiceError Response := do
  let isHead := decide (method = .head)
  if service.root.policy.directoryListing ≠ .enabled then
    service.errorResponse .forbidden "403 Forbidden\n" isHead false
  else
    let entries ← (service.root.list directory service.maxListingEntries).mapError
      fun _ => internal "directory listing failed"
    let body ← renderDirectoryListing entries service.maxListingResponseBytes
    let plan := planDirectoryListing body.length isHead
    let plan := { plan with headers := service.appendExtraHeaders plan.headers }
    let plan := if !isHead then { plan with body := .fullBytes body } else plan
    responseFromPlan plan .empty isHead

/-- The path with a slash, and the query behind it. -/
def redirectLocation (target : RequestTarget) : Str :=
  match target.query with
  | some query => target.path ++ ['/'] ++ '?' :: query
  | none => target.path ++ ['/']

/-- The redirect of a directory to its path with a slash. -/
def redirectResponse (target : RequestTarget) (isHead : Bool) : Except ServiceError Response := do
  let headers ← constructed (builderHeader [] "location" (redirectLocation target))
  constructed (normalizeResponse (builderBody .movedPermanently headers .empty) isHead)

/-- The loop over the names of index files. -/
def indexResponse (directory : ResolvedDirectory ν) (method : ReadOnlyMethod)
    (request : RequestHead) : List Str → MayPanic (Except ServiceError Response)
  | [] => some (service.directoryResponse directory method)
  | indexName :: rest =>
      match service.root.resolveChild directory indexName with
      | .file file => service.fileResponse dates file method request
      | .directory _ | .denied _ =>
          some (service.errorResponse .forbidden "403 Forbidden\n" request.isHead false)
      | .ioError _ => some (.error (internal "filesystem resolution failed"))
      | .notFound => indexResponse directory method request rest

def respond (request : RequestHead) : MayPanic (Except ServiceError Response) :=
  let isHead := request.isHead
  if request.target.form = .absolute then
    some (service.errorResponse .badRequest "400 Bad Request\n" isHead false)
  else if !request.permitsStaticResolution then
    some (service.errorResponse .methodNotAllowed "405 Method Not Allowed\n" isHead true)
  else
    let method : ReadOnlyMethod := if isHead then .head else .get
    match service.root.resolveUri request.target.path with
    | .error rejection =>
        let (status, body) := pathRejectionResponse rejection
        some (service.errorResponse status body isHead false)
    | .ok (.file file) => service.fileResponse dates file method request
    | .ok (.directory directory) =>
        if request.target.path.getLast? ≠ some '/' then
          some (redirectResponse request.target isHead)
        else service.indexResponse dates directory method request ["index.html", "index.htm"]
    | .ok .notFound => some (service.errorResponse .notFound "404 Not Found\n" isHead false)
    | .ok (.denied _) => some (service.errorResponse .forbidden "403 Forbidden\n" isHead false)
    | .ok (.ioError _) => some (.error (internal "filesystem resolution failed"))

end StaticService

/-! What a request comes to. -/

/-- The ways a request is answered. -/
inductive Route (ν : Type) where
  | file (file : OpenedFile ν)
  | listing (directory : ResolvedDirectory ν)
  | redirect
  | error (status : StatusCode) (text : String) (methodNotAllowed : Bool)
  | failure

variable {ν : Type}

def routeIndex (root : SecureRoot ν) (directory : ResolvedDirectory ν) : List Str → Route ν
  | [] =>
      if root.policy.directoryListing = .enabled then .listing directory
      else .error .forbidden "403 Forbidden\n" false
  | indexName :: rest =>
      match root.resolveChild directory indexName with
      | .file file => .file file
      | .directory _ | .denied _ => .error .forbidden "403 Forbidden\n" false
      | .ioError _ => .failure
      | .notFound => routeIndex root directory rest

def route (root : SecureRoot ν) (request : RequestHead) : Route ν :=
  if request.target.form = .absolute then .error .badRequest "400 Bad Request\n" false
  else if !request.permitsStaticResolution then
    .error .methodNotAllowed "405 Method Not Allowed\n" true
  else
    match root.resolveUri request.target.path with
    | .error rejection =>
        .error (pathRejectionResponse rejection).1 (pathRejectionResponse rejection).2 false
    | .ok (.file file) => .file file
    | .ok (.directory directory) =>
        if request.target.path.getLast? ≠ some '/' then .redirect
        else routeIndex root directory ["index.html", "index.htm"]
    | .ok .notFound => .error .notFound "404 Not Found\n" false
    | .ok (.denied _) => .error .forbidden "403 Forbidden\n" false
    | .ok (.ioError _) => .failure

namespace StaticService

variable (dates : HttpDate) (service : StaticService ν)

def readOnlyMethod (isHead : Bool) : ReadOnlyMethod := if isHead then .head else .get

@[simp] theorem readOnlyMethod_eq_head (isHead : Bool) :
    decide (readOnlyMethod isHead = .head) = isHead := by
  cases isHead <;> rfl

/-- The answer on a route. -/
def answer (request : RequestHead) : Route ν → MayPanic (Except ServiceError Response)
  | .file file => service.fileResponse dates file (readOnlyMethod request.isHead) request
  | .listing directory =>
      some (service.directoryResponse directory (readOnlyMethod request.isHead))
  | .redirect => some (redirectResponse request.target request.isHead)
  | .error status text methodNotAllowed =>
      some (service.errorResponse status text request.isHead methodNotAllowed)
  | .failure => some (.error (internal "filesystem resolution failed"))

theorem indexResponse_eq (directory : ResolvedDirectory ν) (request : RequestHead)
    (names : List Str) :
    service.indexResponse dates directory (readOnlyMethod request.isHead) request names =
      service.answer dates request (routeIndex service.root directory names) := by
  induction names with
  | nil =>
      rw [indexResponse, routeIndex]
      split_ifs with hListing
      · rfl
      · rw [directoryResponse, if_pos hListing, readOnlyMethod_eq_head]
        rfl
  | cons indexName rest ih =>
      rw [indexResponse, routeIndex]
      cases service.root.resolveChild directory indexName with
      | notFound => exact ih
      | file | directory | denied | ioError => rfl

/-- Every response is the answer on the route of its request. -/
theorem respond_eq (request : RequestHead) :
    service.respond dates request =
      service.answer dates request (route service.root request) := by
  unfold respond route
  by_cases hForm : request.target.form = .absolute
  · rw [if_pos hForm, if_pos hForm]
    rfl
  · rw [if_neg hForm, if_neg hForm]
    by_cases hMethod : (!request.permitsStaticResolution) = true
    · rw [if_pos hMethod, if_pos hMethod]
      rfl
    · rw [if_neg hMethod, if_neg hMethod]
      cases service.root.resolveUri request.target.path with
      | error rejection => rfl
      | ok resource =>
          cases resource with
          | directory directory =>
              dsimp only
              by_cases hSlash : request.target.path.getLast? ≠ some '/'
              · rw [if_pos hSlash, if_pos hSlash]
                rfl
              · rw [if_neg hSlash, if_neg hSlash]
                exact service.indexResponse_eq dates directory request _
          | file | notFound | denied | ioError => rfl

end StaticService

end Eggserve.Static
