import Eggserve.Static.ExtraHeaders
import Eggserve.Uri.Reference

/-! Where the redirect of a directory leads. The location is the target with a slash put
between its path and its query; a client reads it as a URI reference, and the server
parses and resolves it again. -/
namespace Eggserve.Static
open Rust Posix Eggserve.Primitives Eggserve.Server

/-! A slash at the end of a path. -/

theorem splitComponents_append_slash (path : Str) :
    splitComponents (path ++ ['/']) = splitComponents path := by
  rw [splitComponents, List.splitOn_append_cons_self, List.filter_append]
  simp [splitComponents]

/-- Texts with the same components and the same first segment keep both behind one more
character. -/
theorem splitComponents_cons_congr {c : Char} {left right : Str} (hc : c ≠ '/')
    (hSame : splitComponents left = splitComponents right)
    (hHead : (left.splitOn '/').head? = (right.splitOn '/').head?) :
    splitComponents (c :: left) = splitComponents (c :: right) ∧
      ((c :: left).splitOn '/').head? = ((c :: right).splitOn '/').head? := by
  unfold splitComponents at hSame ⊢
  simp only [List.splitOn_cons_eq_if_modifyHead, beq_iff_eq, hc, ↓reduceIte]
  cases hLeft : left.splitOn '/' with
  | nil => exact absurd hLeft (List.splitOn_ne_nil '/' left)
  | cons first rest =>
      cases hRight : right.splitOn '/' with
      | nil => exact absurd hRight (List.splitOn_ne_nil '/' right)
      | cons other others =>
          rw [hLeft, hRight] at hSame hHead
          obtain rfl := Option.some.inj hHead
          cases first with
          | nil => simpa using hSame
          | cons d more => simpa using hSame

/-- Collapsing keeps the components. Unless a slash came before, it keeps the first
segment too. -/
theorem splitComponents_collapseSlashes (prevWasSlash : Bool) (path : Str) :
    splitComponents (collapseSlashes prevWasSlash path) = splitComponents path ∧
      (prevWasSlash = false →
        ((collapseSlashes prevWasSlash path).splitOn '/').head? = (path.splitOn '/').head?) := by
  induction path generalizing prevWasSlash with
  | nil => exact ⟨rfl, fun _ => rfl⟩
  | cons c rest ih =>
      rw [collapseSlashes]
      by_cases hc : c = '/'
      · rw [if_pos hc, hc]
        cases prevWasSlash with
        | true =>
            rw [if_pos rfl, splitComponents_cons_slash]
            exact ⟨(ih true).1, fun hFlag => absurd hFlag.symm Bool.false_ne_true⟩
        | false =>
            rw [if_neg Bool.false_ne_true, splitComponents_cons_slash, splitComponents_cons_slash]
            refine ⟨(ih true).1, fun _ => ?_⟩
            simp [List.splitOn_cons_eq_if_modifyHead]
      · rw [if_neg hc]
        obtain ⟨hSame, hHead⟩ := splitComponents_cons_congr hc (ih false).1 ((ih false).2 rfl)
        exact ⟨hSame, fun _ => hHead⟩

theorem splitComponents_dropWhile_slash (path : Str) :
    splitComponents (path.dropWhile (· = '/')) = splitComponents path := by
  induction path with
  | nil => rfl
  | cons c rest ih =>
      by_cases hc : c = '/'
      · rw [hc, List.dropWhile_cons_of_pos (by simp), ih, splitComponents_cons_slash]
      · rw [List.dropWhile_cons_of_neg (by simpa using hc)]

/-- Normalizing a path changes none of its components. -/
theorem splitComponents_normalizePath (path : Str) :
    splitComponents (normalizePath path) = splitComponents path := by
  rw [normalizePath]
  split_ifs with hRoot
  · rw [hRoot]
    rfl
  · rw [(splitComponents_collapseSlashes false _).1, splitComponents_dropWhile_slash]

theorem decodeBytes_append_slash {bytes decoded : List UInt8}
    (h : decodeBytes bytes = .ok decoded) :
    decodeBytes (bytes ++ [0x2f]) = .ok (decoded ++ [0x2f]) := by
  fun_induction decodeBytes bytes generalizing decoded with
  | case1 =>
      cases h
      rfl
  | case2 first second rest ih =>
      obtain ⟨byte, hByte, h⟩ := bind_eq_ok.mp h
      obtain ⟨tail, hTail, h⟩ := bind_eq_ok.mp h
      cases h
      simp only [List.cons_append, decodeBytes, ↓reduceIte, hByte, ih hTail]
      rfl
  | case3 => cases h
  | case4 => cases h
  | case5 b rest hPercent hControl ih =>
      obtain ⟨tail, hTail, h⟩ := bind_eq_ok.mp h
      cases h
      rw [List.cons_append, decodeBytes_cons_literal _ hPercent, if_neg hControl, ih hTail]
      rfl

theorem percentDecode_append_slash {path decoded : Str} (h : percentDecode path = .ok decoded) :
    percentDecode (path ++ ['/']) = .ok (decoded ++ ['/']) := by
  have hSlash : utf8 ['/'] = [0x2f] := by decide
  rw [percentDecode_eq_ok, utf8_append, utf8_append, hSlash]
  exact decodeBytes_append_slash (percentDecode_eq_ok.mp h)

/-- A slash at the end doubles one only where the path ends in one. -/
theorem infix_append_slash {path : Str} (hLast : path.getLast? ≠ some '/') :
    ['/', '/'] <:+: path ++ ['/'] ↔ ['/', '/'] <:+: path := by
  rw [List.infix_concat_iff, List.suffix_concat_iff]
  refine or_iff_right ?_
  rintro (hNil | ⟨front, hFront, hSuffix⟩)
  · cases hNil
  · obtain rfl : front = ['/'] := by
      cases front with
      | nil => cases hFront
      | cons c rest =>
          cases rest with
          | nil => rw [(List.cons.inj hFront).1]
          | cons d rest => simp at hFront
    obtain ⟨before, rfl⟩ := hSuffix
    exact hLast (by simp)

/-- A path of an accepted target that does not end in a slash has a first character
behind its root. -/
theorem exists_rooted {path : Str} (hRoot : path.head? = some '/') (hDouble : ¬['/', '/'] <+: path)
    (hLast : path.getLast? ≠ some '/') : ∃ c rest, path = '/' :: c :: rest ∧ c ≠ '/' := by
  obtain ⟨tail, rfl⟩ := List.head?_eq_some_iff.mp hRoot
  cases tail with
  | nil => exact absurd rfl hLast
  | cons c rest =>
      refine ⟨c, rest, rfl, ?_⟩
      rintro rfl
      exact hDouble ⟨rest, rfl⟩

/-- A text without controls and blanks that begins so is accepted. -/
theorem parse_rooted {c : Char} {rest : Str} (hc : c ≠ '/')
    (hClean : ∀ d ∈ '/' :: c :: rest,
      asciiControl d.toNat = false ∧ asciiWhitespace d.toNat = false) :
    RequestTarget.parse ('/' :: c :: rest) =
      .ok (RequestTarget.parseOriginForm ('/' :: c :: rest)) := by
  refine RequestTarget.parse_eq_ok.mpr ⟨hClean, rfl, ?_, rfl⟩
  rintro ⟨tail, hTail⟩
  exact hc (List.cons.inj (List.cons.inj hTail).2).1.symm

namespace ConfinedPath

/-- A path that does not end in a slash is admitted with one, and names the same. -/
theorem fromPathComponent_append_slash {path : Str} {policy : PathPolicy} {p : ConfinedPath}
    (hRoot : path.head? = some '/') (hLast : path.getLast? ≠ some '/')
    (h : fromPathComponent path policy = .ok p) :
    ∃ q, fromPathComponent (path ++ ['/']) policy = .ok q ∧ q.components = p.components := by
  have hHead : (path ++ ['/']).head? = path.head? := by
    obtain ⟨rest, rfl⟩ := List.head?_eq_some_iff.mp hRoot
    rfl
  -- The slash at the end does not change which branch the path takes.
  have hBranch : ((path ++ ['/']).head? = some '/' ∧ '%' ∉ path ++ ['/'] ∧
      ¬['/', '/'] <:+: path ++ ['/']) ↔
      (path.head? = some '/' ∧ '%' ∉ path ∧ ¬['/', '/'] <:+: path) := by
    rw [hHead, infix_append_slash hLast]
    simp
  rw [fromPathComponent] at h ⊢
  split_ifs at h with hFast
  · rw [if_pos (hBranch.mpr hFast)]
    obtain ⟨hConfined, rfl⟩ := fastBranch_eq_ok.mp h
    refine ⟨_, fastBranch_eq_ok.mpr ⟨?_, rfl⟩, splitComponents_append_slash path⟩
    rw [splitComponents_append_slash]
    exact hConfined
  · rw [if_neg (hBranch.not.mpr hFast)]
    obtain ⟨decoded, hDecoded, hConfined, rfl⟩ := decodeBranch_eq_ok.mp h
    have hComponents : splitComponents (normalizePath (decoded ++ ['/'])) =
        splitComponents (normalizePath decoded) := by
      rw [splitComponents_normalizePath, splitComponents_append_slash,
        splitComponents_normalizePath]
    refine ⟨_, decodeBranch_eq_ok.mpr ⟨_, percentDecode_append_slash hDecoded, ?_, rfl⟩,
      hComponents⟩
    rw [hComponents]
    exact hConfined

/-- Parsing such a path again fails only at the bound on its length. -/
theorem parse_append_slash {path : Str} {policy : PathPolicy} {p : ConfinedPath}
    (hMark : '?' ∉ path) (hLast : path.getLast? ≠ some '/') (h : parse path policy = .ok p) :
    (∃ q, parse (path ++ ['/']) policy = .ok q ∧ q.components = p.components) ↔
      (utf8 path).length < 8192 := by
  obtain ⟨hLength, hNul, target, hTarget, hPath⟩ := parse_eq_ok.mp h
  obtain ⟨hClean, hRoot, hDouble, rfl⟩ := RequestTarget.parse_eq_ok.mp hTarget
  rw [RequestTarget.path_parseOriginForm, takeWhile_ne_of_not_mem hMark] at hPath
  have hSlash : (utf8 (path ++ ['/'])).length = (utf8 path).length + 1 := by
    rw [utf8_append, List.length_append]
    rfl
  constructor
  · rintro ⟨q, hParse, -⟩
    have hBound := (parse_eq_ok.mp hParse).1
    omega
  · intro hShort
    obtain ⟨q, hAdmitted, hSame⟩ := fromPathComponent_append_slash hRoot hLast hPath
    obtain ⟨c, rest, rfl, hc⟩ := exists_rooted hRoot hDouble hLast
    have hAgain : RequestTarget.parse ('/' :: c :: (rest ++ ['/'])) =
        .ok (RequestTarget.parseOriginForm ('/' :: c :: (rest ++ ['/']))) := by
      refine parse_rooted hc fun d hd => ?_
      rcases List.mem_append.mp (show d ∈ ('/' :: c :: rest) ++ ['/'] from hd) with hMem | hMem
      · exact hClean d hMem
      · rw [List.mem_singleton.mp hMem]
        decide
    refine ⟨q, parse_eq_ok.mpr ⟨by omega, ?_, _, hAgain, ?_⟩, hSame⟩
    · rw [utf8_append, List.mem_append]
      rintro (hMem | hMem)
      · exact hNul hMem
      · exact absurd hMem (by decide)
    · rw [RequestTarget.path_parseOriginForm, takeWhile_ne_of_not_mem (by simpa using hMark)]
      exact hAdmitted

end ConfinedPath

/-! The location. -/

theorem redirectLocation_eq (target : RequestTarget) :
    StaticService.redirectLocation target =
      (target.path ++ ['/']) ++ target.query.elim [] ('?' :: ·) := by
  unfold StaticService.redirectLocation
  cases target.query with
  | none => simp
  | some query => rfl

section Parsed

variable {raw : Str} {target : RequestTarget}

theorem mark_not_mem_path (hTarget : RequestTarget.parse raw = .ok target) : '?' ∉ target.path := by
  obtain ⟨-, -, -, rfl⟩ := RequestTarget.parse_eq_ok.mp hTarget
  rw [RequestTarget.path_parseOriginForm]
  intro hMem
  simpa using List.mem_takeWhile_imp hMem

theorem path_rooted (hTarget : RequestTarget.parse raw = .ok target)
    (hLast : target.path.getLast? ≠ some '/') :
    ∃ c rest, target.path = '/' :: c :: rest ∧ c ≠ '/' := by
  obtain ⟨-, hRoot, hDouble, rfl⟩ := RequestTarget.parse_eq_ok.mp hTarget
  rw [RequestTarget.path_parseOriginForm] at hLast ⊢
  refine exists_rooted ?_ (fun hPrefix => hDouble (hPrefix.trans (List.takeWhile_prefix _))) hLast
  obtain ⟨rest, rfl⟩ := List.head?_eq_some_iff.mp hRoot
  rfl

/-- The location holds the characters of the target. -/
theorem sharp_mem_redirectLocation (hTarget : RequestTarget.parse raw = .ok target) :
    '#' ∈ StaticService.redirectLocation target ↔ '#' ∈ raw := by
  obtain ⟨-, -, -, rfl⟩ := RequestTarget.parse_eq_ok.mp hTarget
  constructor
  · intro hMem
    rcases StaticService.mem_redirectLocation hMem with hRaw | hSlash | hMark
    · exact hRaw
    · cases hSlash
    · cases hMark
  · intro hMem
    rw [redirectLocation_eq, RequestTarget.path_parseOriginForm,
      RequestTarget.query_parseOriginForm]
    rw [← List.takeWhile_append_dropWhile (p := (· ≠ '?')) (l := raw), List.mem_append] at hMem
    rcases hMem with hPath | hRest
    · exact List.mem_append_left _ (List.mem_append_left _ hPath)
    · refine List.mem_append_right _ ?_
      cases hDrop : raw.dropWhile (· ≠ '?') with
      | nil =>
          rw [hDrop] at hRest
          cases hRest
      | cons mark rest =>
          rw [hDrop] at hRest
          have hMark := List.head?_dropWhile_not (· ≠ '?') raw
          rw [hDrop] at hMark
          have hSharp : '#' ∈ rest := by
            rcases List.mem_cons.mp hRest with rfl | hMem
            · simp at hMark
            · exact hMem
          cases rest with
          | nil => cases hSharp
          | cons first rest => exact List.mem_cons_of_mem _ hSharp

/-- The location is accepted, with a slash behind the path. -/
theorem parse_redirectLocation (hTarget : RequestTarget.parse raw = .ok target)
    (hLast : target.path.getLast? ≠ some '/') :
    ∃ next, RequestTarget.parse (StaticService.redirectLocation target) = .ok next ∧
      next.path = target.path ++ ['/'] := by
  obtain ⟨c, rest, hPath, hc⟩ := path_rooted hTarget hLast
  have hMark := mark_not_mem_path hTarget
  obtain ⟨hClean, -, -, rfl⟩ := RequestTarget.parse_eq_ok.mp hTarget
  have hText : StaticService.redirectLocation (RequestTarget.parseOriginForm raw) = '/' :: c ::
      (rest ++ '/' :: (RequestTarget.parseOriginForm raw).query.elim [] ('?' :: ·)) := by
    rw [redirectLocation_eq, hPath]
    simp
  refine ⟨RequestTarget.parseOriginForm
    (StaticService.redirectLocation (RequestTarget.parseOriginForm raw)), ?_, ?_⟩
  · rw [hText]
    refine parse_rooted hc fun d hd => ?_
    rw [← hText] at hd
    rcases StaticService.mem_redirectLocation hd with hRaw | rfl | rfl
    · exact hClean d hRaw
    · decide
    · decide
  · rw [RequestTarget.path_parseOriginForm, redirectLocation_eq]
    have hSlash : '?' ∉ (RequestTarget.parseOriginForm raw).path ++ ['/'] := by
      simpa using hMark
    cases (RequestTarget.parseOriginForm raw).query with
    | none => simpa using takeWhile_ne_of_not_mem hSlash
    | some query => exact (takeWhile_ne_append query hSlash).1

end Parsed

/-! Roots whose filesystem does not change. -/

/-- A tree that nobody rewrites, the root pinned in it, and its policy. What the
resolver that follows links finds, and what the lister finds, is given. -/
structure StillRoot (ν : Type) where
  tree : Tree ν Attributes
  pinned : PinnedRoot tree.unchanged
  follow : List Str → StaticPolicy → Bool → ResolvedResource ν
  list : ResolvedDirectory ν → Nat → Except Errno (List ListingEntry)
  policy : ServicePolicy

namespace StillRoot

variable {ν : Type} (root : StillRoot ν)

def fallback : Fallback ν := fun components policy rejectBackslash p =>
  (root.follow components policy rejectBackslash, p)

/-- The root as a request finds it that the process comes to in the given state. -/
def seenBy (p : Process ν) : SecureRoot ν where
  policy := root.policy
  resolve confined :=
    (RootGuard.resolve root.fallback root.pinned confined root.policy.toStaticPolicy p).1
  resolveChild directory child :=
    (RootGuard.resolveChild root.fallback root.pinned directory child
      root.policy.toStaticPolicy p).1
  list := root.list

def pathPolicy : PathPolicy := rootPathPolicy root.policy.toStaticPolicy

/-- Paths with the same components lead to the same resource, whenever they are
resolved. -/
theorem resolve_seenBy {confined again : ConfinedPath}
    (hComponents : again.components = confined.components)
    (hPolicy : again.pathPolicy = confined.pathPolicy) (p q : Process ν) :
    (root.seenBy q).resolve again = (root.seenBy p).resolve confined := by
  unfold seenBy RootGuard.resolve
  dsimp only
  rw [hComponents, hPolicy]
  split_ifs
  · unfold resolveFdRelative
    split_ifs
    · rfl
    · exact resolveComponents_unchanged _ _ _ _ _
  · rfl

end StillRoot

/-! Where a redirect leads. -/

section Landing

variable {ν : Type} {root : StillRoot ν} {request : RequestHead} {directory : ResolvedDirectory ν}

/-- Read as a reference, the location stays with the server and names the path of the
request with a slash, and its query. Followed at any time, it leads to the directory, and
no further. -/
structure LandsOn (root : StillRoot ν) (request : RequestHead) (directory : ResolvedDirectory ν)
    (location : Str) : Prop where
  scheme : (Uri.Reference.read location).scheme = none
  authority : (Uri.Reference.read location).authority = none
  path : (Uri.Reference.read location).path = request.target.path ++ ['/']
  query : (Uri.Reference.read location).query = request.target.query
  fragment : (Uri.Reference.read location).fragment = none
  followed : ∃ next confined again, RequestTarget.parse location = .ok next ∧
    ConfinedPath.parse request.target.path root.pathPolicy = .ok confined ∧
    ConfinedPath.parse next.path root.pathPolicy = .ok again ∧
    again.components = confined.components ∧
    ∀ later, (root.seenBy later).resolveUri next.path = .ok (.directory directory) ∧
      route (root.seenBy later) { request with target := next } ≠ .redirect

theorem resolveUri_eq_ok {p : Process ν} {uri : Str} {resource : ResolvedResource ν} :
    (root.seenBy p).resolveUri uri = .ok resource ↔
      ∃ confined, ConfinedPath.parse uri root.pathPolicy = .ok confined ∧
        (root.seenBy p).resolve confined = resource := by
  rw [SecureRoot.resolveUri, bind_eq_ok]
  refine exists_congr fun confined => and_congr_right fun _ => ?_
  exact ⟨fun h => Except.ok.inj h, fun h => congrArg Except.ok h⟩

theorem routeIndex_ne_redirect (seen : SecureRoot ν) (found : ResolvedDirectory ν)
    (names : List Str) : routeIndex seen found names ≠ .redirect := by
  induction names with
  | nil =>
      rw [routeIndex]
      split_ifs <;> exact fun h => by cases h
  | cons name rest ih =>
      rw [routeIndex]
      split
      · exact fun h => by cases h
      · exact fun h => by cases h
      · exact fun h => by cases h
      · exact fun h => by cases h
      · exact ih

/-- A path with a slash at the end is not redirected. -/
theorem route_ne_redirect {seen : SecureRoot ν} (hSlash : request.target.path.getLast? = some '/') :
    route seen request ≠ .redirect := by
  intro hRoute
  unfold route at hRoute
  simp only [hSlash, ne_eq, not_true_eq_false, ↓reduceIte] at hRoute
  split_ifs at hRoute
  split at hRoute
  · cases hRoute
  · cases hRoute
  · exact routeIndex_ne_redirect seen _ _ hRoute
  · cases hRoute
  · cases hRoute
  · cases hRoute

/-- The location lands on the directory exactly when the target has no number sign and
its path leaves room for the slash. -/
theorem landsOn_iff {raw : Str} {p : Process ν}
    (hTarget : RequestTarget.parse raw = .ok request.target)
    (hLast : request.target.path.getLast? ≠ some '/')
    (hResolves : (root.seenBy p).resolveUri request.target.path = .ok (.directory directory)) :
    LandsOn root request directory (StaticService.redirectLocation request.target) ↔
      '#' ∉ raw ∧ (utf8 request.target.path).length < 8192 := by
  obtain ⟨confined, hConfined, hResource⟩ := resolveUri_eq_ok.mp hResolves
  obtain ⟨next, hNext, hPath⟩ := parse_redirectLocation hTarget hLast
  have hRoom := ConfinedPath.parse_append_slash (mark_not_mem_path hTarget) hLast hConfined
  constructor
  · intro hLands
    refine ⟨(sharp_mem_redirectLocation hTarget).not.mp
      (Uri.Reference.fragment_read_eq_none.mp hLands.fragment), hRoom.mp ?_⟩
    obtain ⟨other, first, again, hOther, hFirst, hAgain, hComponents, -⟩ := hLands.followed
    obtain rfl := Except.ok.inj (hNext.symm.trans hOther)
    obtain rfl := Except.ok.inj (hConfined.symm.trans hFirst)
    rw [hPath] at hAgain
    exact ⟨again, hAgain, hComponents⟩
  · rintro ⟨hSharp, hLength⟩
    obtain ⟨again, hAgain, hComponents⟩ := hRoom.mpr hLength
    have hPolicy : again.pathPolicy = confined.pathPolicy :=
      (ConfinedPath.parse_bounds hAgain).1.policy_eq.trans
        (ConfinedPath.parse_bounds hConfined).1.policy_eq.symm
    have hRead : Uri.Reference.read (StaticService.redirectLocation request.target) =
        ⟨none, none, request.target.path ++ ['/'], request.target.query, none⟩ := by
      obtain ⟨c, rest, hRooted, hc⟩ := path_rooted hTarget hLast
      rw [← sharp_mem_redirectLocation hTarget, redirectLocation_eq, List.mem_append] at hSharp
      have hMark : '?' ∉ request.target.path ++ ['/'] := by
        simpa using mark_not_mem_path hTarget
      rw [redirectLocation_eq]
      rw [hRooted] at hSharp hMark ⊢
      refine Uri.Reference.read_rooted hc hMark (fun hMem => hSharp (.inl hMem)) ?_
      intro text hText hMem
      refine hSharp (.inr ?_)
      rw [Option.mem_def.mp hText]
      exact List.mem_cons_of_mem _ hMem
    refine ⟨by rw [hRead], by rw [hRead], by rw [hRead], by rw [hRead], by rw [hRead], ?_⟩
    refine ⟨next, confined, again, hNext, hConfined, hPath ▸ hAgain, hComponents, fun later => ?_⟩
    refine ⟨resolveUri_eq_ok.mpr ⟨again, hPath ▸ hAgain, ?_⟩, route_ne_redirect ?_⟩
    · rw [root.resolve_seenBy hComponents hPolicy p later, hResource]
    · show next.path.getLast? = some '/'
      rw [hPath]
      simp

/-- The octets of a location survive the trimming of a header value. -/
theorem bytes_of_redirectLocation {raw : Str} {target : RequestTarget} {value : HeaderValue}
    (hTarget : RequestTarget.parse raw = .ok target)
    (hValue : HeaderValue.new (StaticService.redirectLocation target) = .ok value) :
    value.bytes = utf8 (StaticService.redirectLocation target) := by
  rw [HeaderValue.bytes_of_fromBytes hValue]
  refine trimOws_of_no_ows fun byte hByte => Bool.eq_false_iff.mpr fun hOws => ?_
  have hBlank : byte.toNat < 128 ∧ asciiWhitespace byte.toNat = true := by
    rw [isOwsByte, Bool.or_eq_true, decide_eq_true_iff, decide_eq_true_iff] at hOws
    rcases hOws with rfl | rfl <;> decide
  obtain ⟨c, hMem, hCode⟩ := (mem_utf8_ascii hBlank.1).mp hByte
  obtain ⟨hClean, -, -, rfl⟩ := RequestTarget.parse_eq_ok.mp hTarget
  rw [← hCode] at hBlank
  rcases StaticService.mem_redirectLocation hMem with hRaw | rfl | rfl
  · exact Bool.false_ne_true ((hClean c hRaw).2.symm.trans hBlank.2)
  · exact absurd hBlank.2 (by decide)
  · exact absurd hBlank.2 (by decide)

/-- The redirect of a directory is a 301 whose location lands on it. -/
def RedirectLands (dates : HttpDate) (service : StaticService ν) (root : StillRoot ν)
    (request : RequestHead) (directory : ResolvedDirectory ν) : Prop :=
  ∃ response value location, service.respond dates request = some (.ok response) ∧
    response.status = .movedPermanently ∧ response.headers.getAll "location" = [value] ∧
    value.bytes = utf8 location ∧ LandsOn root request directory location

theorem respond_redirect (dates : HttpDate) {service : StaticService ν} {raw : Str}
    (hTarget : RequestTarget.parse raw = .ok request.target)
    (hMethod : request.permitsStaticResolution = true)
    (hLast : request.target.path.getLast? ≠ some '/')
    (hResolves : service.root.resolveUri request.target.path = .ok (.directory directory)) :
    ∃ response value, service.respond dates request = some (.ok response) ∧
      response.status = .movedPermanently ∧ response.headers.getAll "location" = [value] ∧
      value.bytes = utf8 (StaticService.redirectLocation request.target) := by
  obtain ⟨value, response, hValue, hRedirect, hResponse, hHops⟩ :=
    StaticService.redirectResponse_eq_ok hTarget request.isHead
  have hForm : request.target.form = .origin := by
    obtain ⟨-, -, -, hEq⟩ := RequestTarget.parse_eq_ok.mp hTarget
    rw [hEq]
    rfl
  refine ⟨response, value, ?_, ?_, ?_, bytes_of_redirectLocation hTarget hValue⟩
  · simp [StaticService.respond, hForm, hMethod, hResolves, hLast, hRedirect]
  · obtain ⟨-, rfl⟩ := normalize_builderBody.mp hResponse
    rfl
  · rw [getAll_normalized hResponse hHops (by decide)]
    rfl

end Landing

/-- The redirect of a directory lands on it exactly when the target has no number sign,
which would start a fragment, and the path is short enough to be accepted with the slash. -/
theorem directory_redirect_lands_iff {ν : Type} (dates : HttpDate) (service : StaticService ν)
    (root : StillRoot ν) (p : Process ν) (request : RequestHead) (raw : Str)
    (directory : ResolvedDirectory ν) (hRoot : service.root = root.seenBy p)
    (hTarget : RequestTarget.parse raw = .ok request.target)
    (hMethod : request.permitsStaticResolution = true)
    (hLast : request.target.path.getLast? ≠ some '/')
    (hResolves : (root.seenBy p).resolveUri request.target.path = .ok (.directory directory)) :
    RedirectLands dates service root request directory ↔
      '#' ∉ raw ∧ (utf8 request.target.path).length < 8192 := by
  rw [← hRoot] at hResolves
  obtain ⟨response, value, hRespond, hStatus, hHeader, hBytes⟩ :=
    respond_redirect dates hTarget hMethod hLast hResolves
  rw [← landsOn_iff hTarget hLast (hRoot ▸ hResolves)]
  constructor
  · rintro ⟨other, found, location, hOther, -, hFound, hText, hLands⟩
    obtain rfl := Except.ok.inj (Option.some.inj (hRespond.symm.trans hOther))
    obtain rfl := (List.cons.inj (hHeader.symm.trans hFound)).1
    rwa [utf8_injective (hText.symm.trans hBytes)] at hLands
  · intro hLands
    exact ⟨response, value, _, hRespond, hStatus, hHeader, hBytes, hLands⟩

/-- A root on a tree, with every policy at its default. -/
def stillRoot (tree : Tree Nat Attributes) (hRoot : tree.fileType 0 = .directory) :
    StillRoot Nat where
  tree := tree
  pinned := ⟨"/srv", 0, hRoot⟩
  follow _ _ _ := .notFound
  list _ _ := .ok []
  policy := {}

def stillService (root : StillRoot Nat) : StaticService Nat where
  root := root.seenBy ⟨0, []⟩
  maxListingResponseBytes_le := defaultListingBytes_le

theorem docs_redirect_lands :
    RedirectLands noDates (stillService (stillRoot docsTree rfl)) (stillRoot docsTree rfl)
      (docsRequest "/docs?v=1") ⟨1, "/srv/docs", ["docs"], true⟩ := by
  have hTarget : RequestTarget.parse "/docs?v=1" = .ok (docsRequest "/docs?v=1").target :=
    parse_rooted (by decide) (by decide)
  have hResolves : ((stillRoot docsTree rfl).seenBy ⟨0, []⟩).resolveUri
      (docsRequest "/docs?v=1").target.path =
        .ok (.directory ⟨1, "/srv/docs", ["docs"], true⟩) := rfl
  exact (directory_redirect_lands_iff noDates _ _ ⟨0, []⟩ _ _ _ rfl hTarget (by decide) (by decide)
    hResolves).mpr ⟨by decide, by decide⟩

/-- A tree with the directory `a#b`. -/
def sharpTree : Tree Nat Attributes where
  fileType _ := .directory
  entry dir name := if dir = 0 ∧ name = utf8 "a#b" then some 1 else none
  walk _ _ := none
  attributes _ :=
    { content := [], metadata := { len := 0, modified := none, len_le := Nat.zero_le _ } }
  linkErrno := .loop
  names dir :=
    match dir with
    | 0 => dotEntries ++ [utf8 "a#b"]
    | _ => []
  names_nodup dir := by
    match dir with
    | 0 => decide
    | _ + 1 => exact List.nodup_nil
  names_single dir := by
    match dir with
    | 0 => decide
    | _ + 1 => exact fun _ hMem => absurd hMem List.not_mem_nil
  mem_names dir name _ hName := by
    have hDots : name ∉ dotEntries := by
      simp [dotEntries, hName.not_current, hName.not_parent]
    match dir with
    | 0 => simp [hDots]
    | _ + 1 => simp

/-- The location of a directory with a number sign in its name is read as a path that
ends before the sign, and a fragment. -/
theorem sharp_redirect_fragment :
    RequestTarget.parse "/a#b" = .ok (docsRequest "/a#b").target ∧
      ((stillRoot sharpTree rfl).seenBy ⟨0, []⟩).resolveUri (docsRequest "/a#b").target.path =
        .ok (.directory ⟨1, "/srv/a#b", ["a#b"], true⟩) ∧
      (∃ response value,
        (stillService (stillRoot sharpTree rfl)).respond noDates (docsRequest "/a#b") =
          some (.ok response) ∧ response.status = .movedPermanently ∧
        response.headers.getAll "location" = [value] ∧ value.bytes = utf8 "/a#b/") ∧
      Uri.Reference.read "/a#b/" = ⟨none, none, "/a", none, some "b/"⟩ ∧
      ¬RedirectLands noDates (stillService (stillRoot sharpTree rfl)) (stillRoot sharpTree rfl)
        (docsRequest "/a#b") ⟨1, "/srv/a#b", ["a#b"], true⟩ := by
  have hTarget : RequestTarget.parse "/a#b" = .ok (docsRequest "/a#b").target :=
    parse_rooted (by decide) (by decide)
  have hResolves : ((stillRoot sharpTree rfl).seenBy ⟨0, []⟩).resolveUri
      (docsRequest "/a#b").target.path = .ok (.directory ⟨1, "/srv/a#b", ["a#b"], true⟩) := rfl
  have hRespond := respond_redirect noDates hTarget (by decide) (by decide)
    (show (stillService (stillRoot sharpTree rfl)).root.resolveUri _ = _ from hResolves)
  refine ⟨hTarget, hResolves, hRespond, by decide +kernel, ?_⟩
  obtain ⟨response, value, hFirst, -, hHeader, hBytes⟩ := hRespond
  rintro ⟨other, found, location, hOther, -, hFound, hText, hLands⟩
  obtain rfl := Except.ok.inj (Option.some.inj (hFirst.symm.trans hOther))
  obtain rfl := (List.cons.inj (hHeader.symm.trans hFound)).1
  rw [utf8_injective (hText.symm.trans hBytes)] at hLands
  exact absurd hLands.fragment (by decide +kernel)

end Eggserve.Static
