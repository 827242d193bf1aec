import Eggserve.Primitives.Upgrade
import Eggserve.Server.FinalizeCanonical
import Eggserve.Server.HopByHop

/-! List fields on several lines. A peer may cut a line at a comma or join lines
with one; what the server reads from `Connection`, `Upgrade` and `TE` is the list. -/
namespace Eggserve.Server
open Rust Eggserve.Primitives

def h1TrailersAllowed (head : RequestHead) : Bool :=
  match head.version with
  | .http10 => false
  | .http11 =>
      match getFirst head.headers "te" with
      | none => false
      | some te =>
          match te.toStr with
          | none => false
          | some text =>
              ((text.splitOn ',').map trim).any fun token => eqIgnoreAsciiCase token "trailers"
  | .http2 | .http3 => false

/-! Regrouping. -/

def isListField (name : HeaderName) : Bool := name.is "connection" || name.is "upgrade" || name.is "te"

/-- A line is cut at a comma in place, or a line is joined to an earlier one of
the same name. The condition is on the lines that are taken. -/
inductive RegroupStep (taken : HeaderField → Prop) : HeaderBlock → HeaderBlock → Prop where
  | cut (front back : HeaderBlock) (name : HeaderName) {value left right : HeaderValue}
      {before after : List UInt8} (hList : isListField name = true) (hTaken : taken ⟨name, value⟩)
      (hValue : value.bytes = before ++ 0x2c :: after)
      (hLeft : HeaderValue.fromBytes before = .ok left)
      (hRight : HeaderValue.fromBytes after = .ok right) :
      RegroupStep taken (front ++ ⟨name, value⟩ :: back)
        (front ++ ⟨name, left⟩ :: ⟨name, right⟩ :: back)
  | join (front between back : HeaderBlock) (name other : HeaderName)
      {first second joined : HeaderValue} (hList : isListField name = true)
      (hName : name.is other.text = true) (hFirst : taken ⟨name, first⟩)
      (hSecond : taken ⟨other, second⟩)
      (hJoined : HeaderValue.fromBytes (first.bytes ++ 0x2c :: 0x20 :: second.bytes) = .ok joined) :
      RegroupStep taken (front ++ ⟨name, first⟩ :: (between ++ ⟨other, second⟩ :: back))
        (front ++ ⟨name, joined⟩ :: (between ++ back))

def Regroups (taken : HeaderField → Prop) : HeaderBlock → HeaderBlock → Prop :=
  Relation.ReflTransGen (RegroupStep taken)

/-- A line that can be read as text. -/
def IsText (value : HeaderValue) : Prop := value.toStr.isSome = true

def TextIf (name : Str) (field : HeaderField) : Prop := field.name.is name = true → IsText field.value

/-- The lines yield a list that does not depend on the grouping. -/
structure ReadsAsList {γ : Type} (fit : HeaderValue → Prop) (read : HeaderValue → List γ) :
    Prop where
  cut : ∀ value left right before after, fit value → value.bytes = before ++ 0x2c :: after →
    HeaderValue.fromBytes before = .ok left → HeaderValue.fromBytes after = .ok right →
    read value = read left ++ read right
  join : ∀ first second joined, fit first → fit second →
    HeaderValue.fromBytes (first.bytes ++ 0x2c :: 0x20 :: second.bytes) = .ok joined →
    read joined = read first ++ read second

section Regrouping

variable {γ : Type} {taken : HeaderField → Prop} {fit : HeaderValue → Prop}
variable {read : HeaderValue → List γ} {headers regrouped : HeaderBlock}

theorem getAll_append (first second : HeaderBlock) (name : Str) :
    HeaderBlock.getAll (first ++ second) name = first.getAll name ++ second.getAll name := by
  simp [HeaderBlock.getAll]

theorem getAll_cons (field : HeaderField) (rest : HeaderBlock) (name : Str) :
    HeaderBlock.getAll (field :: rest) name =
      (if field.name.is name then [field.value] else []) ++ rest.getAll name := by
  simp only [HeaderBlock.getAll, List.filter_cons]
  split_ifs <;> rfl

theorem is_congr {name other : HeaderName} (hName : name.is other.text = true) (target : Str) :
    other.is target = name.is target :=
  (eqIgnoreAsciiCase_congr_left hName target).symm

theorem ReadsAsList.step_perm (h : ReadsAsList fit read)
    (hStep : RegroupStep taken headers regrouped) {name : Str}
    (hFit : ∀ field, taken field → field.name.is name = true → fit field.value) :
    ((regrouped.getAll name).flatMap read).Perm ((headers.getAll name).flatMap read) := by
  cases hStep with
  | cut front back field hList hTaken hValue hLeft hRight =>
      simp only [getAll_append, getAll_cons, List.flatMap_append]
      cases hIs : field.is name with
      | false => exact .refl _
      | true => simp [h.cut _ _ _ _ _ (hFit _ hTaken hIs) hValue hLeft hRight]
  | join front between back field other hList hName hFirst hSecond hJoined =>
      simp only [getAll_append, getAll_cons, List.flatMap_append, is_congr hName]
      cases hIs : field.is name with
      | false => exact .refl _
      | true =>
          have hBoth := h.join _ _ _ (hFit _ hFirst hIs)
            (hFit _ hSecond ((is_congr hName name).trans hIs)) hJoined
          simp only [if_true, List.flatMap_singleton, hBoth, List.append_assoc]
          refine List.Perm.append_left _ (List.Perm.append_left _ ?_)
          rw [← List.append_assoc, ← List.append_assoc]
          exact List.Perm.append_right _ List.perm_append_comm

theorem ReadsAsList.perm (h : ReadsAsList fit read) (hRegroups : Regroups taken headers regrouped)
    {name : Str} (hFit : ∀ field, taken field → field.name.is name = true → fit field.value) :
    ((regrouped.getAll name).flatMap read).Perm ((headers.getAll name).flatMap read) := by
  induction hRegroups with
  | refl => exact .refl _
  | tail _ hStep ih => exact (h.step_perm hStep hFit).trans ih

end Regrouping

/-! What is read from one line. -/

/-- The elements of a line that is text, with Unicode blanks around them. -/
def textElements (value : HeaderValue) : List Str :=
  match value.toStr with
  | some text => (text.splitOn ',').map trim
  | none => []

theorem comma_not_ows (b : UInt8) (h : isOwsByte b = true) : (b == 0x2c) = false := by
  rw [isOwsByte_eq, Bool.or_eq_true, beq_iff_eq, beq_iff_eq] at h
  rw [beq_eq_false_iff_ne]
  rintro rfl
  rcases h with h | h <;> cases h

theorem readsAsList_lineElements : ReadsAsList (fun _ => True) lineElements where
  cut value left right before after _ hValue hLeft hRight := by
    simp only [lineElements, hValue, HeaderValue.bytes_of_fromBytes hLeft,
      HeaderValue.bytes_of_fromBytes hRight]
    rw [elements_append_cons _ _ (by rfl)]
    exact congrArg₂ _ (elements_trimBlank comma_not_ows (fun _ h => h) before).symm
      (elements_trimBlank comma_not_ows (fun _ h => h) after).symm
  join first second joined _ _ hJoined := by
    simp only [lineElements, HeaderValue.bytes_of_fromBytes hJoined]
    refine (elements_trimBlank comma_not_ows (fun _ h => h) _).trans ?_
    rw [elements_append_cons _ _ (by rfl)]
    exact congrArg _ (elements_blank_append comma_not_ows second.bytes
      (List.forall_mem_singleton.mpr rfl : ∀ b ∈ [(0x20 : UInt8)], isOwsByte b = true))

theorem comma_not_whitespace (c : Char) (h : isWhitespace c = true) : (c == ',') = false := by
  rw [beq_eq_false_iff_ne]
  rintro rfl
  exact absurd h (by decide)

theorem isWhitespace_of_isOwsChar (c : Char) (h : isOwsChar c = true) : isWhitespace c = true := by
  simp only [isOwsChar, Bool.or_eq_true, decide_eq_true_eq] at h
  rcases h with rfl | rfl <;> decide

theorem toStr_of_trimOws {raw : Str} {value : HeaderValue}
    (h : HeaderValue.fromBytes (utf8 raw) = .ok value) :
    value.toStr = some (trimBlank isOwsChar raw) := by
  rw [HeaderValue.toStr, HeaderValue.bytes_of_fromBytes h, fromUtf8_eq_some_iff]
  exact trimBlank_flatMap encodes_ows raw

theorem textElements_of_fromBytes {raw : Str} {value : HeaderValue}
    (h : HeaderValue.fromBytes (utf8 raw) = .ok value) :
    textElements value = elements (· == ',') isWhitespace raw := by
  rw [textElements, toStr_of_trimOws h]
  exact elements_trimBlank comma_not_whitespace isWhitespace_of_isOwsChar raw

theorem textElements_of_toStr {value : HeaderValue} {text : Str} (h : value.toStr = some text) :
    textElements value = elements (· == ',') isWhitespace text := by
  rw [textElements, h]
  rfl

/-- A line of text is cut into texts. -/
theorem toStr_cut {value : HeaderValue} {before after : List UInt8} (h : IsText value)
    (hValue : value.bytes = before ++ 0x2c :: after) :
    ∃ front back, value.toStr = some (front ++ ',' :: back) ∧ before = utf8 front ∧
      after = utf8 back := by
  obtain ⟨text, hText⟩ := Option.isSome_iff_exists.mp h
  have hBytes := (fromUtf8_eq_some_iff.mp hText).symm.trans hValue
  obtain ⟨front, back, rfl, hFront, hBack⟩ := @utf8_eq_append_cons ',' (by decide) _ _ _ hBytes
  exact ⟨front, back, hText, hFront, hBack⟩

theorem readsAsList_textElements : ReadsAsList IsText textElements where
  cut value left right before after hTaken hValue hLeft hRight := by
    obtain ⟨front, back, hText, rfl, rfl⟩ := toStr_cut hTaken hValue
    rw [textElements_of_toStr hText, elements_append_cons _ _ (by rfl),
      textElements_of_fromBytes hLeft, textElements_of_fromBytes hRight]
  join first second joined hFirst hSecond hJoined := by
    obtain ⟨front, hFront⟩ := Option.isSome_iff_exists.mp hFirst
    obtain ⟨back, hBack⟩ := Option.isSome_iff_exists.mp hSecond
    have hRaw : first.bytes ++ 0x2c :: 0x20 :: second.bytes =
        utf8 (front ++ ',' :: ' ' :: back) := by
      rw [fromUtf8_eq_some_iff.mp hFront, fromUtf8_eq_some_iff.mp hBack, utf8_append]
      rfl
    rw [hRaw] at hJoined
    rw [textElements_of_fromBytes hJoined, elements_append_cons _ _ (by rfl),
      textElements_of_toStr hFront, textElements_of_toStr hBack]
    exact congrArg _ (elements_blank_append comma_not_whitespace back
      (List.forall_mem_singleton.mpr rfl : ∀ c ∈ [' '], isWhitespace c = true))

section Invariance

variable {taken : HeaderField → Prop} {headers regrouped : HeaderBlock}

theorem classifyH1Upgrade_regroup (hRegroups : Regroups (fun _ => True) headers regrouped)
    (version : HttpVersion) :
    classifyH1Upgrade regrouped version = classifyH1Upgrade headers version := by
  have hConnection : (listElements regrouped "connection").Perm
      (listElements headers "connection") := readsAsList_lineElements.perm hRegroups fun _ _ _ => trivial
  have hUpgrade : (listElements regrouped "upgrade").Perm (listElements headers "upgrade") :=
    readsAsList_lineElements.perm hRegroups fun _ _ _ => trivial
  refine Option.ext fun protocol => ?_
  rw [classifyH1Upgrade_eq_some, classifyH1Upgrade_eq_some, hConnection.countP_eq,
    ← List.perm_singleton, ← List.perm_singleton]
  refine and_congr_right fun _ => and_congr ?_ (and_congr_right fun _ => ?_)
  · exact ⟨fun h element hElement => h element (hConnection.mem_iff.mpr hElement),
      fun h element hElement => h element (hConnection.mem_iff.mp hElement)⟩
  · exact ⟨fun h => hUpgrade.symm.trans h, fun h => hUpgrade.trans h⟩

theorem isHopByHopHeader_of_isListField {name : HeaderName} (h : isListField name = true) :
    isHopByHopHeader name.text = true := by
  simp only [isListField, Bool.or_eq_true] at h
  rw [isHopByHopHeader, List.any_eq_true]
  rcases h with (hName | hName) | hName
  · exact ⟨"connection", by decide, hName⟩
  · exact ⟨"upgrade", by decide, hName⟩
  · exact ⟨"te", by decide, hName⟩

theorem connectionTokens_eq (headers : HeaderBlock) :
    connectionTokens headers = (((headers.getAll "connection").flatMap textElements).filter
      fun name => !name.isEmpty).map (·.map Char.toLower) := by
  unfold connectionTokens HeaderBlock.getAll
  generalize headers.filter (·.name.is "connection") = lines
  congr 2
  induction lines with
  | nil => rfl
  | cons field rest ih =>
      rw [List.map_cons, List.flatMap_cons, ← ih, textElements]
      cases hText : field.value.toStr with
      | none => simp only [List.filterMap_cons, hText, List.nil_append]
      | some text => simp only [List.filterMap_cons, hText, List.flatMap_cons, List.map_append]

theorem nominated_regroup (hRegroups : Regroups (TextIf "connection") headers regrouped)
    (name : HeaderName) :
    nominated regrouped name = nominated headers name := by
  have hTokens : (connectionTokens regrouped).Perm (connectionTokens headers) := by
    rw [connectionTokens_eq, connectionTokens_eq]
    exact ((readsAsList_textElements.perm hRegroups fun _ hText => hText).filter _).map _
  exact hTokens.any_eq

/-- The fields of other names stay as they are. -/
theorem filter_regroup {keeps : HeaderField → Bool} (hRegroups : Regroups taken headers regrouped)
    (hKeeps : ∀ field, isListField field.name = true → keeps field = false) :
    regrouped.filter keeps = headers.filter keeps := by
  induction hRegroups with
  | refl => rfl
  | tail _ hStep ih =>
      rw [← ih]
      cases hStep with
      | cut front back name hList _ _ _ _ =>
          have hName : ∀ value, keeps ⟨name, value⟩ = false := fun value => hKeeps ⟨_, value⟩ hList
          simp [List.filter_append, hName]
      | join front between back name other hList hName _ _ _ =>
          have hOther : isListField other = true := by
            simp only [isListField, is_congr hName]
            exact hList
          have hFirst : ∀ value, keeps ⟨name, value⟩ = false := fun value => hKeeps ⟨_, value⟩ hList
          have hSecond : ∀ value, keeps ⟨other, value⟩ = false := fun value =>
            hKeeps ⟨_, value⟩ hOther
          simp [List.filter_append, hFirst, hSecond]

theorem stripHopByHop_regroup (hRegroups : Regroups (TextIf "connection") headers regrouped) :
    stripHopByHop regrouped = stripHopByHop headers := by
  have hEndToEnd : endToEnd regrouped = endToEnd headers := by
    funext field
    rw [endToEnd, endToEnd, nominated_regroup hRegroups]
  rw [stripHopByHop_eq, stripHopByHop_eq, hEndToEnd]
  refine filter_regroup hRegroups fun field hList => ?_
  simp [endToEnd, isHopByHopHeader_of_isListField hList]

/-! `TE`. Only its first line is read. -/

def isTrailersToken (token : Str) : Bool := eqIgnoreAsciiCase token "trailers"

/-- The first element of the first line. -/
def teHead (headers : HeaderBlock) : Option Str :=
  (headers.getAll "te").head?.bind fun value => (textElements value).head?

/-- The list names `trailers` first, if at all. -/
def TrailersFirst (headers : HeaderBlock) : Prop :=
  (∃ token ∈ (headers.getAll "te").flatMap textElements, isTrailersToken token = true) →
    ∃ token, teHead headers = some token ∧ isTrailersToken token = true

theorem h1TrailersAllowed_eq (head : RequestHead) :
    h1TrailersAllowed head = (decide (head.version = .http11) &&
      (head.headers.getAll "te").head?.any fun value => (textElements value).any isTrailersToken) := by
  have hFirst : getFirst head.headers "te" = (head.headers.getAll "te").head? := by
    rw [getFirst, HeaderBlock.getAll, List.head?_map, List.head?_filter]
  unfold h1TrailersAllowed
  rw [hFirst]
  cases head.version with
  | http11 =>
      cases (head.headers.getAll "te").head? with
      | none => rfl
      | some value =>
          simp only [decide_true, Bool.true_and, Option.any_some, textElements]
          cases value.toStr with
          | none => rfl
          | some text => rfl
  | http10 => rfl
  | http2 => rfl
  | http3 => rfl

theorem TrailersFirst.allowed_eq (h : TrailersFirst headers) :
    ((headers.getAll "te").head?.any fun value => (textElements value).any isTrailersToken) =
      ((headers.getAll "te").flatMap textElements).any isTrailersToken := by
  unfold TrailersFirst teHead at h
  cases hLines : headers.getAll "te" with
  | nil => rfl
  | cons value rest =>
      rw [hLines] at h
      simp only [List.head?_cons, Option.any_some, List.flatMap_cons, List.any_append,
        Option.bind_some] at h ⊢
      cases hFound : (textElements value).any isTrailersToken with
      | true => rfl
      | false =>
          rw [Bool.false_or, eq_comm, List.any_eq_false]
          intro token hToken hTrailers
          obtain ⟨first, hHead, hFirst⟩ := h ⟨token, List.mem_append_right _ hToken, hTrailers⟩
          exact List.any_eq_false.mp hFound first (List.mem_of_mem_head? hHead) hFirst

/-- The first element of a line stays first when the line is cut. -/
theorem head?_textElements_cut {value left right : HeaderValue} {before after : List UInt8}
    (h : IsText value) (hValue : value.bytes = before ++ 0x2c :: after)
    (hLeft : HeaderValue.fromBytes before = .ok left)
    (hRight : HeaderValue.fromBytes after = .ok right) :
    (textElements left).head? = (textElements value).head? := by
  rw [readsAsList_textElements.cut value left right before after h hValue hLeft hRight]
  obtain ⟨front, -, -, rfl, -⟩ := toStr_cut h hValue
  rw [textElements_of_fromBytes hLeft, List.head?_append_of_ne_nil _ (elements_ne_nil front)]

/-- And when another is joined to it. -/
theorem head?_textElements_join {first second joined : HeaderValue} (hFirst : IsText first)
    (hSecond : IsText second)
    (hJoined : HeaderValue.fromBytes (first.bytes ++ 0x2c :: 0x20 :: second.bytes) = .ok joined) :
    (textElements joined).head? = (textElements first).head? := by
  rw [readsAsList_textElements.join first second joined hFirst hSecond hJoined]
  obtain ⟨text, hText⟩ := Option.isSome_iff_exists.mp hFirst
  rw [textElements_of_toStr hText, List.head?_append_of_ne_nil _ (elements_ne_nil text)]

theorem teHead_step (hStep : RegroupStep (TextIf "te") headers regrouped) :
    teHead regrouped = teHead headers := by
  unfold teHead
  cases hStep with
  | cut front back name hList hTaken hValue hLeft hRight =>
      simp only [getAll_append, getAll_cons, List.head?_append]
      cases (front.getAll "te").head? with
      | some value => rfl
      | none =>
          cases hIs : name.is "te" with
          | false => rfl
          | true => exact head?_textElements_cut (hTaken hIs) hValue hLeft hRight
  | join front between back name other hList hName hFirst hSecond hJoined =>
      simp only [getAll_append, getAll_cons, List.head?_append, is_congr hName]
      cases (front.getAll "te").head? with
      | some value => rfl
      | none =>
          cases hIs : name.is "te" with
          | false => rfl
          | true =>
              exact head?_textElements_join (hFirst hIs)
                (hSecond ((is_congr hName _).trans hIs)) hJoined

theorem TrailersFirst.regroup (h : TrailersFirst headers)
    (hRegroups : Regroups (TextIf "te") headers regrouped) : TrailersFirst regrouped := by
  have hHead : teHead regrouped = teHead headers := by
    clear h
    induction hRegroups with
    | refl => rfl
    | tail _ hStep ih => exact (teHead_step hStep).trans ih
  have hPerm := readsAsList_textElements.perm hRegroups fun _ hText => hText
  rintro ⟨token, hToken, hTrailers⟩
  rw [hHead]
  exact h ⟨token, hPerm.mem_iff.mp hToken, hTrailers⟩

theorem h1TrailersAllowed_regroup (head : RequestHead)
    (hRegroups : Regroups (TextIf "te") head.headers regrouped)
    (hFirst : TrailersFirst head.headers) :
    h1TrailersAllowed { head with headers := regrouped } = h1TrailersAllowed head := by
  have hPerm := readsAsList_textElements.perm hRegroups fun _ hText => hText
  rw [h1TrailersAllowed_eq, h1TrailersAllowed_eq, hFirst.allowed_eq,
    (hFirst.regroup hRegroups).allowed_eq, hPerm.any_eq]

end Invariance

/-- List fields are read as one list: regrouping changes no upgrade, no stripping
of text lines, and no trailers where `TE` names them first. An upgrade is
recognized by the combined lists alone. -/
theorem listFields_read_as_one :
    (∀ headers regrouped version, Regroups (fun _ => True) headers regrouped →
      classifyH1Upgrade regrouped version = classifyH1Upgrade headers version) ∧
    (∀ headers version protocol, classifyH1Upgrade headers version = some protocol ↔
      version = .http11 ∧ (∀ element ∈ listElements headers "connection", IsToken element) ∧
        (listElements headers "connection").countP isUpgradeToken = 1 ∧
        listElements headers "upgrade" = [protocol.asBytes]) ∧
    (∀ headers regrouped, Regroups (TextIf "connection") headers regrouped →
      stripHopByHop regrouped = stripHopByHop headers ∧
        ∀ name, nominated regrouped name = nominated headers name) ∧
    ∀ (head : RequestHead) regrouped, Regroups (TextIf "te") head.headers regrouped →
      TrailersFirst head.headers →
        h1TrailersAllowed { head with headers := regrouped } = h1TrailersAllowed head :=
  ⟨fun _ _ version hRegroups => classifyH1Upgrade_regroup hRegroups version,
    classifyH1Upgrade_eq_some,
    fun _ _ hRegroups => ⟨stripHopByHop_regroup hRegroups, nominated_regroup hRegroups⟩,
    fun head _ hRegroups hFirst => h1TrailersAllowed_regroup head hRegroups hFirst⟩

def connectionName : HeaderName := ⟨"Connection".toList, connection_isName⟩

def upgradeName : HeaderName := ⟨"Upgrade".toList, by decide⟩

def keepAliveValue : HeaderValue := ⟨utf8 "keep-alive", by decide, by decide⟩

def upgradeValue : HeaderValue := ⟨utf8 "Upgrade", by decide, by decide⟩

def websocketField : HeaderField := ⟨upgradeName, ⟨utf8 "websocket", by decide, by decide⟩⟩

/-- Two `Connection` lines around an `Upgrade` line. -/
def upgradeLines : HeaderBlock :=
  [⟨connectionName, keepAliveValue⟩, websocketField, ⟨connectionName, upgradeValue⟩]

def upgradeJoined : HeaderBlock :=
  [⟨connectionName, ⟨utf8 "keep-alive, Upgrade", by decide, by decide⟩⟩, websocketField]

theorem upgradeLines_regroup :
    classifyH1Upgrade upgradeJoined .http11 = classifyH1Upgrade upgradeLines .http11 ∧
      (classifyH1Upgrade upgradeLines .http11).map (·.text) = some "websocket".toList := by
  refine ⟨listFields_read_as_one.1 _ _ _ (.single ?_), by decide +kernel⟩
  exact .join [] [websocketField] [] connectionName connectionName (by decide) (by decide) trivial
    trivial (by rfl)

/-- A `Connection` line that is no text, and its two parts. -/
def opaqueLine : HeaderBlock :=
  [⟨connectionName, ⟨utf8 "x-hop," ++ [0xff], by decide, by decide⟩⟩,
    ⟨⟨"X-Hop".toList, xHop_isName⟩, ⟨utf8 "1", one_isValue, one_trimmed⟩⟩]

def opaqueCut : HeaderBlock :=
  [⟨connectionName, ⟨utf8 "x-hop", by decide, by decide⟩⟩,
    ⟨connectionName, ⟨[0xff], by decide, by decide⟩⟩,
    ⟨⟨"X-Hop".toList, xHop_isName⟩, ⟨utf8 "1", one_isValue, one_trimmed⟩⟩]

def teName : HeaderName := ⟨"TE".toList, te_isName⟩

def teLines : HeaderBlock :=
  [⟨teName, ⟨utf8 "deflate", by decide, by decide⟩⟩,
    ⟨teName, ⟨utf8 "trailers", trailers_isValue, trailers_trimmed⟩⟩]

def teJoined : HeaderBlock := [⟨teName, ⟨utf8 "deflate, trailers", by decide, by decide⟩⟩]

def teRequest (headers : HeaderBlock) : RequestHead where
  method := "GET"
  target := (RequestTarget.parse "/").toOption.get (by decide +kernel)
  version := .http11
  headers := headers
  authority := none

/-- A part that becomes text by a cut counts, and a second `TE` line does not. -/
theorem regrouping_is_seen :
    (Regroups (fun _ => True) opaqueLine opaqueCut ∧
      stripHopByHop opaqueCut ≠ stripHopByHop opaqueLine) ∧
    Regroups (fun _ => True) teLines teJoined ∧
      h1TrailersAllowed (teRequest teLines) = false ∧
      h1TrailersAllowed (teRequest teJoined) = true := by
  refine ⟨⟨.single ?_, by decide +kernel⟩, .single ?_, by decide +kernel, by decide +kernel⟩
  · exact .cut [] _ connectionName (by decide) trivial
      (rfl : _ = utf8 "x-hop" ++ 0x2c :: [0xff]) (by rfl) (by rfl)
  · exact .join [] [] [] teName teName (by decide) (by decide) trivial trivial (by rfl)

end Eggserve.Server
