import Eggserve.Primitives.RequestHead
import Eggserve.Primitives.Tunnel
import Eggserve.Rust.Split

/-! The classification of an HTTP/1 upgrade. The lines of a list field are read
one after the other; together they are one list. -/
namespace Eggserve.Primitives
open Rust

/-- One token of a `Connection` line. -/
def countUpgrade (count : Nat) (token : Str) : Option Nat :=
  let token := trimBlank isOwsChar token
  if token.isEmpty then none
  else if !(utf8 token).all isTchar then none
  else if eqIgnoreAsciiCase token "upgrade" then some (count + 1)
  else some count

/-- One token of an `Upgrade` line. -/
def pushProtocol (protocols : List Str) (token : Str) : Option (List Str) :=
  let token := trimBlank isOwsChar token
  if token.isEmpty then none else some (protocols ++ [token])

/-- The loop over the lines of a name and the tokens of each. -/
def walkList {β : Type} (visit : β → Str → Option β) (name : Str) (headers : HeaderBlock)
    (start : β) : Option β :=
  (headers.filter (·.name.is name)).foldlM
    (fun acc field => field.value.toStr.bind fun text => (text.splitOn ',').foldlM visit acc) start

def classifyH1Upgrade (headers : HeaderBlock) (version : HttpVersion) : Option ProtocolName :=
  if version = .http10 then none
  else if version ≠ .http11 then none
  else do
    let upgradeCount ← walkList countUpgrade "connection" headers 0
    if upgradeCount ≠ 1 then none
    else do
      let protocols ← walkList pushProtocol "upgrade" headers []
      match protocols with
      | [protocol] => (ProtocolName.new protocol).toOption
      | _ => none

/-! The combined list. -/

/-- The elements of one line. -/
def lineElements (value : HeaderValue) : List (List UInt8) :=
  elements (· == 0x2c) isOwsByte value.bytes

/-- The elements of all lines of a name. -/
def listElements (headers : HeaderBlock) (name : Str) : List (List UInt8) :=
  (headers.getAll name).flatMap lineElements

def IsToken (element : List UInt8) : Prop := element ≠ [] ∧ element.all isTchar = true

def isUpgradeToken (element : List UInt8) : Bool :=
  (fromUtf8 element).any (eqIgnoreAsciiCase · "upgrade")

section Lines

theorem isOwsByte_eq (b : UInt8) : isOwsByte b = (b.toNat == 0x20 || b.toNat == 0x09) := by
  rw [Bool.eq_iff_iff]
  simp [isOwsByte, ← UInt8.toNat_inj]

theorem isOwsChar_eq (c : Char) : isOwsChar c = (c.toNat == 0x20 || c.toNat == 0x09) := by
  have hSpace : c = ' ' ↔ c.toNat = 0x20 := ⟨fun h => h ▸ rfl, fun h => char_eq_of_toNat h⟩
  have hTab : c = '\t' ↔ c.toNat = 0x09 := ⟨fun h => h ▸ rfl, fun h => char_eq_of_toNat h⟩
  rw [Bool.eq_iff_iff]
  simp [isOwsChar, hSpace, hTab]

theorem encodes_ows : Encodes String.utf8EncodeChar isOwsChar isOwsByte := by
  have hEnc := @encodes_utf8 (fun n => n == 0x20 || n == 0x09) (by
    intro n hn
    simp only [Bool.or_eq_true, beq_iff_eq] at hn
    omega)
  rw [funext isOwsChar_eq, funext isOwsByte_eq]
  exact hEnc

theorem encodes_comma : Encodes String.utf8EncodeChar (· == ',') (· == 0x2c) := by
  have hEnc := @encodes_utf8 (· == 0x2c) (by
    intro n hn
    have hComma : n = 0x2c := by simpa using hn
    omega)
  have hChar : (fun c : Char => c == ',') = fun c => c.toNat == 0x2c := by
    funext c
    rw [Bool.eq_iff_iff, beq_iff_eq, beq_iff_eq]
    exact ⟨fun h => h ▸ rfl, fun h => char_eq_of_toNat h⟩
  have hByte : (fun b : UInt8 => b == 0x2c) = fun b => b.toNat == 0x2c := by
    funext b
    rw [Bool.eq_iff_iff, beq_iff_eq, beq_iff_eq, ← UInt8.toNat_inj]
    rfl
  rw [hChar, hByte]
  exact hEnc

/-- The elements of a text, octet by octet and character by character. -/
theorem elements_utf8 (text : Str) :
    elements (· == 0x2c) isOwsByte (utf8 text) =
      ((text.splitOn ',').map (trimBlank isOwsChar)).map utf8 := by
  refine elements_flatMap encodes_ows encodes_comma (fun c hc => ?_) text
  obtain rfl : c = ',' := by simpa using hc
  exact ⟨0x2c, rfl⟩

/-- A line of tokens is text. -/
theorem toStr_of_tokens {value : HeaderValue}
    (hTokens : ∀ element ∈ lineElements value, element.all isTchar = true) :
    ∃ text, value.toStr = some text := by
  have hAscii : ∀ b ∈ value.bytes, b.toNat < 128 := by
    intro b hb
    by_cases hComma : (b == 0x2c) = true
    · rw [beq_iff_eq.mp hComma]
      decide
    · by_cases hOws : isOwsByte b = true
      · rw [isOwsByte_eq, Bool.or_eq_true, beq_iff_eq, beq_iff_eq] at hOws
        omega
      · obtain ⟨element, hElement, hMem⟩ := @exists_mem_elements _ (· == 0x2c) isOwsByte
          b value.bytes (by simpa using hComma) (by simpa using hOws) hb
        exact toNat_lt_of_isTokenByte (List.all_eq_true.mp (hTokens element hElement) b hMem)
  obtain ⟨text, hText⟩ := exists_utf8_of_ascii hAscii
  exact ⟨text, fromUtf8_eq_some_iff.mpr hText⟩

end Lines

/-! The loops. -/

section Loops

variable {headers : HeaderBlock} {name : Str}

/-- What a loop finds in the tokens of a list of elements. -/
structure Visits {β : Type} (visit : β → Str → Option β)
    (found : β → List (List UInt8) → β → Prop) : Prop where
  done : ∀ acc, found acc [] acc
  sound : ∀ acc token next, visit acc token = some next →
    found acc [utf8 (trimBlank isOwsChar token)] next
  complete : ∀ acc token, IsToken (utf8 (trimBlank isOwsChar token)) → (visit acc token).isSome = true
  append : ∀ acc mid next first second, found acc first mid → found mid second next →
    found acc (first ++ second) next

variable {β : Type} {visit : β → Str → Option β} {found : β → List (List UInt8) → β → Prop}

theorem Visits.tokens_sound (h : Visits visit found) {tokens : List Str} {acc result : β}
    (hRun : tokens.foldlM visit acc = some result) :
    found acc ((tokens.map (trimBlank isOwsChar)).map utf8) result := by
  induction tokens generalizing acc with
  | nil =>
      obtain rfl : acc = result := by simpa using hRun
      exact h.done acc
  | cons token rest ih =>
      rw [List.foldlM_cons, Option.bind_eq_bind, Option.bind_eq_some_iff] at hRun
      obtain ⟨next, hFirst, hRest⟩ := hRun
      exact h.append acc next result [_] _ (h.sound acc token next hFirst) (ih hRest)

theorem Visits.tokens_complete (h : Visits visit found) {tokens : List Str} (acc : β)
    (hTokens : ∀ element ∈ (tokens.map (trimBlank isOwsChar)).map utf8, IsToken element) :
    (tokens.foldlM visit acc).isSome = true := by
  induction tokens generalizing acc with
  | nil => rfl
  | cons token rest ih =>
      rw [List.map_cons, List.map_cons, List.forall_mem_cons] at hTokens
      obtain ⟨next, hFirst⟩ := Option.isSome_iff_exists.mp (h.complete acc token hTokens.1)
      rw [List.foldlM_cons, Option.bind_eq_bind, hFirst, Option.bind_some]
      exact ih next hTokens.2

theorem Visits.walk_sound (h : Visits visit found) {start result : β}
    (hRun : walkList visit name headers start = some result) :
    found start (listElements headers name) result := by
  unfold walkList at hRun
  unfold listElements HeaderBlock.getAll
  generalize headers.filter (·.name.is name) = lines at hRun ⊢
  induction lines generalizing start with
  | nil =>
      obtain rfl : start = result := by simpa using hRun
      exact h.done start
  | cons field rest ih =>
      rw [List.foldlM_cons, Option.bind_eq_bind, Option.bind_eq_some_iff] at hRun
      obtain ⟨next, hLine, hRest⟩ := hRun
      obtain ⟨text, hText, hTokens⟩ := Option.bind_eq_some_iff.mp hLine
      rw [List.map_cons, List.flatMap_cons, lineElements, fromUtf8_eq_some_iff.mp hText,
        elements_utf8]
      exact h.append start next result _ _ (h.tokens_sound hTokens) (ih hRest)

theorem Visits.walk_complete (h : Visits visit found) (start : β)
    (hTokens : ∀ element ∈ listElements headers name, IsToken element) :
    ∃ result, walkList visit name headers start = some result := by
  unfold walkList
  unfold listElements HeaderBlock.getAll at hTokens
  generalize headers.filter (·.name.is name) = lines at hTokens ⊢
  induction lines generalizing start with
  | nil => exact ⟨start, rfl⟩
  | cons field rest ih =>
      rw [List.map_cons, List.flatMap_cons, List.forall_mem_append] at hTokens
      obtain ⟨text, hText⟩ := toStr_of_tokens fun element hElement => (hTokens.1 element hElement).2
      have hLine := hTokens.1
      rw [lineElements, fromUtf8_eq_some_iff.mp hText, elements_utf8] at hLine
      obtain ⟨next, hNext⟩ := Option.isSome_iff_exists.mp (h.tokens_complete start hLine)
      obtain ⟨result, hRest⟩ := ih next hTokens.2
      refine ⟨result, ?_⟩
      rw [List.foldlM_cons, Option.bind_eq_bind, hText, Option.bind_some, hNext, Option.bind_some]
      exact hRest

theorem utf8_eq_nil {s : Str} : utf8 s = [] ↔ s = [] :=
  ⟨fun h => utf8_injective (h.trans utf8_nil.symm), fun h => h ▸ utf8_nil⟩

theorem visits_countUpgrade : Visits countUpgrade fun count found result =>
    (∀ element ∈ found, IsToken element) ∧ result = count + found.countP isUpgradeToken where
  done count := ⟨fun _ h => absurd h List.not_mem_nil, rfl⟩
  sound count token next h := by
    unfold countUpgrade at h
    generalize trimBlank isOwsChar token = trimmed at h ⊢
    have hUpgraded : isUpgradeToken (utf8 trimmed) = eqIgnoreAsciiCase trimmed "upgrade" := by
      rw [isUpgradeToken, fromUtf8_utf8, Option.any_some]
    simp only [List.isEmpty_iff, Bool.not_eq_true'] at h
    split_ifs at h with hEmpty hTchar hUpgrade
    · obtain rfl := Option.some.inj h
      rw [List.countP_singleton, if_pos (hUpgraded.trans hUpgrade)]
      exact ⟨List.forall_mem_singleton.mpr ⟨mt utf8_eq_nil.mp hEmpty, by simpa using hTchar⟩, rfl⟩
    · obtain rfl := Option.some.inj h
      rw [List.countP_singleton, if_neg (hUpgraded ▸ hUpgrade)]
      exact ⟨List.forall_mem_singleton.mpr ⟨mt utf8_eq_nil.mp hEmpty, by simpa using hTchar⟩, rfl⟩
  complete count token hToken := by
    unfold countUpgrade
    generalize trimBlank isOwsChar token = trimmed at hToken ⊢
    have hEmpty : ¬trimmed = [] := mt utf8_eq_nil.mpr hToken.1
    simp only [List.isEmpty_iff, hEmpty, hToken.2, Bool.not_true, Bool.false_eq_true, if_false]
    split_ifs <;> rfl
  append count mid next first second hFirst hSecond := by
    refine ⟨List.forall_mem_append.mpr ⟨hFirst.1, hSecond.1⟩, ?_⟩
    rw [List.countP_append, hSecond.2, hFirst.2, Nat.add_assoc]

theorem visits_pushProtocol : Visits pushProtocol fun protocols found result =>
    ∃ added : List Str, found = added.map utf8 ∧ result = protocols ++ added where
  done protocols := ⟨[], rfl, (List.append_nil _).symm⟩
  sound protocols token next h := by
    unfold pushProtocol at h
    generalize trimBlank isOwsChar token = trimmed at h ⊢
    simp only at h
    split_ifs at h
    exact ⟨[trimmed], rfl, (Option.some.inj h).symm⟩
  complete protocols token hToken := by
    unfold pushProtocol
    generalize trimBlank isOwsChar token = trimmed at hToken ⊢
    have hEmpty : ¬trimmed = [] := mt utf8_eq_nil.mpr hToken.1
    simp [hEmpty]
  append protocols mid next first second := by
    rintro ⟨added, rfl, rfl⟩ ⟨more, rfl, rfl⟩
    exact ⟨added ++ more, List.map_append.symm, List.append_assoc _ _ _⟩

/-- The `Connection` loop counts the upgrade tokens of a list of tokens. -/
theorem walk_countUpgrade {count : Nat} :
    walkList countUpgrade name headers 0 = some count ↔
      (∀ element ∈ listElements headers name, IsToken element) ∧
        (listElements headers name).countP isUpgradeToken = count := by
  constructor
  · intro hRun
    obtain ⟨hTokens, hCount⟩ := visits_countUpgrade.walk_sound hRun
    exact ⟨hTokens, by omega⟩
  · rintro ⟨hTokens, hCount⟩
    obtain ⟨result, hRun⟩ := visits_countUpgrade.walk_complete 0 hTokens
    have hResult := (visits_countUpgrade.walk_sound hRun).2
    rw [hRun, hResult, hCount, Nat.zero_add]

/-- The `Upgrade` loop finds one protocol where the list has one token. -/
theorem walk_pushProtocol {protocol : Str} (hToken : IsToken (utf8 protocol)) :
    walkList pushProtocol name headers [] = some [protocol] ↔
      listElements headers name = [utf8 protocol] := by
  constructor
  · intro hRun
    obtain ⟨added, hFound, hAdded⟩ := visits_pushProtocol.walk_sound hRun
    rw [hFound, ← List.nil_append added, ← hAdded]
    rfl
  · intro hFound
    have hTokens : ∀ element ∈ listElements headers name, IsToken element := by
      rw [hFound]
      exact List.forall_mem_singleton.mpr hToken
    obtain ⟨result, hRun⟩ := visits_pushProtocol.walk_complete [] hTokens
    obtain ⟨added, hAdded, rfl⟩ := visits_pushProtocol.walk_sound hRun
    have hSame : result.map utf8 = [protocol].map utf8 := hAdded.symm.trans hFound
    rw [hRun, List.map_injective_iff.mpr (fun _ _ h => utf8_injective h) hSame]

end Loops

theorem ProtocolName.isToken (protocol : ProtocolName) : IsToken protocol.asBytes :=
  ⟨mt utf8_eq_nil.mp protocol.valid.1, protocol.valid.2.2⟩

theorem ProtocolName.new_eq_ok {name : Str} {protocol : ProtocolName} :
    (ProtocolName.new name).toOption = some protocol ↔ protocol.text = name := by
  constructor
  · intro h
    unfold ProtocolName.new at h
    split_ifs at h
    · cases h
    · obtain rfl := Option.some.inj h
      rfl
    · cases h
  · rintro rfl
    obtain ⟨text, hNonempty, hLength, hTchar⟩ := protocol
    simp only [ProtocolName.new]
    rw [dif_neg (not_or.mpr ⟨hNonempty, Nat.not_lt.mpr hLength⟩), dif_pos hTchar]
    rfl

/-- An upgrade is recognized by the combined lists alone. -/
theorem classifyH1Upgrade_eq_some (headers : HeaderBlock) (version : HttpVersion)
    (protocol : ProtocolName) :
    classifyH1Upgrade headers version = some protocol ↔
      version = .http11 ∧ (∀ element ∈ listElements headers "connection", IsToken element) ∧
        (listElements headers "connection").countP isUpgradeToken = 1 ∧
        listElements headers "upgrade" = [protocol.asBytes] := by
  unfold classifyH1Upgrade
  by_cases hVersion : version = .http11
  · subst hVersion
    rw [if_neg (by decide), if_neg (by decide), Option.bind_eq_bind, Option.bind_eq_some_iff]
    constructor
    · rintro ⟨count, hCount, hRest⟩
      obtain ⟨hTokens, hUpgrades⟩ := walk_countUpgrade.mp hCount
      by_cases hOne : count = 1
      · rw [if_neg (not_not.mpr hOne), Option.bind_eq_bind, Option.bind_eq_some_iff] at hRest
        obtain ⟨protocols, hProtocols, hNew⟩ := hRest
        match protocols, hNew with
        | [found], hNew =>
            obtain rfl := ProtocolName.new_eq_ok.mp hNew
            exact ⟨rfl, hTokens, hUpgrades.trans hOne,
              (walk_pushProtocol protocol.isToken).mp hProtocols⟩
      · rw [if_pos hOne] at hRest
        cases hRest
    · rintro ⟨-, hTokens, hUpgrades, hProtocol⟩
      refine ⟨1, walk_countUpgrade.mpr ⟨hTokens, hUpgrades⟩, ?_⟩
      rw [if_neg (by simp), (walk_pushProtocol protocol.isToken).mpr hProtocol]
      exact ProtocolName.new_eq_ok.mpr rfl
  · rw [if_pos hVersion, ite_self]
    constructor
    · intro h
      cases h
    · intro h
      exact absurd h.1 hVersion

end Eggserve.Primitives
