import Mathlib.Data.List.GetD
import Eggserve.Primitives.ProxyProtocol
import Eggserve.Rust.NetText
import Eggserve.Rust.Panicking

/-! The parsers of the PROXY protocol with the indices and slices that they take, and the
preambles of given endpoints, which they read back. -/
namespace Eggserve.Primitives
open Rust

/-! The parsers as they index. -/

/-- `u16::from_be_bytes` of two octets at an index. -/
def beU16At (buf : List UInt8) (i : Nat) : Panicking ProxyParseError Nat := do
  let high ← Panicking.index buf i
  let low ← Panicking.index buf (i + 1)
  return high.toNat * 256 + low.toNat

/-- Four octets, one by one. -/
def ipv4Indexed (body : List UInt8) (i : Nat) : Panicking ProxyParseError IpAddr := do
  let a ← Panicking.index body i
  let b ← Panicking.index body (i + 1)
  let c ← Panicking.index body (i + 2)
  let d ← Panicking.index body (i + 3)
  return .v4 (Ipv4Addr.ofOctets [a.toNat, b.toNat, c.toNat, d.toNat])

/-- Sixteen octets, copied into an array of that size. -/
def ipv6Indexed (body : List UInt8) (i : Nat) : Panicking ProxyParseError IpAddr := do
  let octets ← Panicking.subslice body i (i + 16)
  if octets.length = 16 then
    return .v6 ⟨BitVec.ofNat 128 (bigEndian 256 (octets.map UInt8.toNat))⟩
  else Panicking.ofMayPanic none

def parseV2AddressesIndexed (family protocol len : Nat) (body : List UInt8) :
    Panicking ProxyParseError ProxyEndpoints :=
  match family, protocol with
  | 0, 0 => return ⟨none, none, .proxyV2⟩
  | 1, 1 =>
      if len < 12 then throw .invalid
      else do
        let sourceIp ← ipv4Indexed body 0
        let destinationIp ← ipv4Indexed body 4
        let sourcePort ← beU16At body 8
        let destinationPort ← beU16At body 10
        return ⟨some ⟨sourceIp, sourcePort⟩, some ⟨destinationIp, destinationPort⟩, .proxyV2⟩
  | 2, 1 =>
      if len < 36 then throw .invalid
      else do
        let sourceIp ← ipv6Indexed body 0
        let destinationIp ← ipv6Indexed body 16
        let sourcePort ← beU16At body 32
        let destinationPort ← beU16At body 34
        return ⟨some ⟨sourceIp, sourcePort⟩, some ⟨destinationIp, destinationPort⟩, .proxyV2⟩
  | 3, 1 => if len < 216 then throw .invalid else return ⟨none, none, .proxyV2⟩
  | _, _ => throw .invalid

def parseProxyV2HeaderIndexed (buf : List UInt8) :
    Panicking ProxyParseError (ProxyEndpoints × Nat) := do
  Panicking.ofExcept (failIf (buf.length < proxyV2HeaderLen) .incomplete)
  let signature ← Panicking.subslice buf 0 12
  Panicking.ofExcept (failIf (signature ≠ proxyV2Signature) .invalid)
  let verCmd ← Panicking.index buf 12
  Panicking.ofExcept (failIf (verCmd.toNat / 16 ≠ 2) .invalid)
  let command := verCmd.toNat % 16
  Panicking.ofExcept (failIf (command ≠ 0 ∧ command ≠ 1) .invalid)
  let famProto ← Panicking.index buf 13
  let family := famProto.toNat / 16
  let protocol := famProto.toNat % 16
  Panicking.ofExcept (failIf (3 < family) .invalid)
  Panicking.ofExcept (failIf (2 < protocol) .invalid)
  let len ← beU16At buf 14
  Panicking.ofExcept (failIf (proxyV2MaxLen < len) .tooLong)
  let total := proxyV2HeaderLen + len
  Panicking.ofExcept (failIf (buf.length < total) .incomplete)
  let body ← Panicking.subslice buf proxyV2HeaderLen total
  if command = 0 then return (⟨none, none, .proxyV2⟩, total)
  else
    let endpoints ← parseV2AddressesIndexed family protocol len body
    return (endpoints, total)

/-- The words of a line by their numbers. -/
def parseV1WordsIndexed (parts : List Str) : Panicking ProxyParseError ProxyEndpoints := do
  Panicking.ofExcept (failIf (parts.length ≠ 6 ∨ parts.any List.isEmpty = true) .invalid)
  let proxy ← Panicking.index parts 0
  Panicking.ofExcept (failIf (proxy ≠ "PROXY") .invalid)
  let protocol ← Panicking.index parts 1
  let isV4 ← Panicking.ofExcept (v1Family protocol)
  let source ← Panicking.index parts 2
  let sourceIp ← Panicking.ofExcept (parseIpOf isV4 source)
  let destination ← Panicking.index parts 3
  let destinationIp ← Panicking.ofExcept (parseIpOf isV4 destination)
  let sourcePort ← Panicking.index parts 4
  let sourcePort ← Panicking.ofExcept (parsePortStrict sourcePort)
  let destinationPort ← Panicking.index parts 5
  let destinationPort ← Panicking.ofExcept (parsePortStrict destinationPort)
  return ⟨some ⟨sourceIp, sourcePort⟩, some ⟨destinationIp, destinationPort⟩, .proxyV1⟩

def parseProxyV1LineIndexed (line : List UInt8) : Panicking ProxyParseError ProxyEndpoints := do
  Panicking.ofExcept (failIf (proxyV1MaxBytes < line.length) .tooLong)
  Panicking.ofExcept (failIf (line.length < 8 ∨ ¬crlf <:+ line) .invalid)
  Panicking.ofExcept (failIf (¬proxyV1Start <+: line) .invalid)
  Panicking.ofExcept (failIf (line.any (fun byte => 128 ≤ byte) = true) .invalid)
  let stop ← Panicking.ofMayPanic (checkedSub line.length 2)
  let inner ← Panicking.subslice line 0 stop
  match fromUtf8 inner with
  | none => throw .invalid
  | some text =>
      if text = "PROXY UNKNOWN" ∨ ("PROXY UNKNOWN " : Str) <+: text then
        return ⟨none, none, .proxyV1⟩
      else parseV1WordsIndexed (text.splitOn ' ')

/-! No index is out of bounds. -/

section Bounds

variable {α : Type} {buf body : List UInt8} {i : Nat}

theorem beU16At_bind (h : i + 1 < buf.length) (f : Nat → Panicking ProxyParseError α) :
    (beU16At buf i >>= f) = f (beU16 buf i) := by
  rw [beU16At, bind_assoc, Panicking.index_bind (by omega), bind_assoc, Panicking.index_bind h,
    pure_bind, beU16, List.getD_eq_getElem _ _ (by omega), List.getD_eq_getElem _ _ h]

theorem ipv4Indexed_bind (h : i + 3 < body.length) (f : IpAddr → Panicking ProxyParseError α) :
    (ipv4Indexed body i >>= f) = f (ipv4At body i) := by
  have hOctets : (body.drop i).take 4 =
      [body[i], body[i + 1], body[i + 2], body[i + 3]] := by
    rw [List.drop_eq_getElem_cons (by omega), List.drop_eq_getElem_cons (by omega),
      List.drop_eq_getElem_cons (by omega), List.drop_eq_getElem_cons (by omega)]
    rfl
  simp only [ipv4Indexed, bind_assoc]
  rw [Panicking.index_bind (by omega), Panicking.index_bind (by omega),
    Panicking.index_bind (by omega), Panicking.index_bind h, pure_bind, ipv4At, hOctets]
  rfl

theorem ipv6Indexed_bind (h : i + 16 ≤ body.length) (f : IpAddr → Panicking ProxyParseError α) :
    (ipv6Indexed body i >>= f) = f (ipv6At body i) := by
  have hLength : ((body.drop i).take 16).length = 16 := by
    rw [List.length_take, List.length_drop]
    omega
  rw [ipv6Indexed, bind_assoc, Panicking.subslice_bind (by omega) h, List.drop_take,
    Nat.add_sub_cancel_left, if_pos hLength, pure_bind, ipv6At]

theorem parseV2AddressesIndexed_eq (family protocol : Nat) {len : Nat} (h : body.length = len) :
    parseV2AddressesIndexed family protocol len body =
      Panicking.ofExcept (parseV2Addresses family protocol len body) := by
  fun_cases parseV2Addresses family protocol len body with
  | case1 => rfl
  | case2 hShort => exact if_pos hShort
  | case3 hLong =>
      refine (if_neg hLong).trans ?_
      rw [ipv4Indexed_bind (by omega), ipv4Indexed_bind (by omega), beU16At_bind (by omega),
        beU16At_bind (by omega)]
      rfl
  | case4 hShort => exact if_pos hShort
  | case5 hLong =>
      refine (if_neg hLong).trans ?_
      rw [ipv6Indexed_bind (by omega), ipv6Indexed_bind (by omega), beU16At_bind (by omega),
        beU16At_bind (by omega)]
      rfl
  | case6 hShort => exact if_pos hShort
  | case7 hLong => exact if_neg hLong
  | case8 family protocol h00 h11 h21 h31 =>
      unfold parseV2AddressesIndexed
      split
      · exact (h00 rfl rfl).elim
      · exact (h11 rfl rfl).elim
      · exact (h21 rfl rfl).elim
      · exact (h31 rfl rfl).elim
      · rfl

/-- The header parser never indexes out of bounds: after each check the indices that follow
are within the buffer. -/
theorem parseProxyV2HeaderIndexed_eq (buf : List UInt8) :
    parseProxyV2HeaderIndexed buf = Panicking.ofExcept (parseProxyV2Header buf) := by
  refine Panicking.bind_ofExcept fun _ hLength => ?_
  rw [failIf_eq_ok, proxyV2HeaderLen] at hLength
  rw [Panicking.subslice_bind (Nat.zero_le _) (by omega), List.drop_zero]
  refine Panicking.bind_ofExcept fun _ _ => ?_
  rw [Panicking.index_bind (by omega), List.getD_eq_getElem _ _ (by omega)]
  refine Panicking.bind_ofExcept fun _ _ => Panicking.bind_ofExcept fun _ _ => ?_
  rw [Panicking.index_bind (by omega), List.getD_eq_getElem _ _ (by omega)]
  refine Panicking.bind_ofExcept fun _ _ => Panicking.bind_ofExcept fun _ _ => ?_
  rw [beU16At_bind (by omega)]
  refine Panicking.bind_ofExcept fun _ _ => Panicking.bind_ofExcept fun _ hTotal => ?_
  rw [failIf_eq_ok, Nat.not_lt] at hTotal
  rw [Panicking.subslice_bind (by omega) hTotal]
  split_ifs with hLocal
  · rfl
  · have hBody : ((buf.take (proxyV2HeaderLen + v2Length buf)).drop proxyV2HeaderLen).length =
        v2Length buf := by
      rw [List.length_drop, List.length_take, v2Length] at *
      omega
    rw [show beU16 buf 14 = v2Length buf from rfl, parseV2AddressesIndexed_eq _ _ hBody]
    exact Panicking.bind_ofExcept fun _ _ => rfl

theorem parseV1WordsIndexed_eq (parts : List Str) :
    parseV1WordsIndexed parts = Panicking.ofExcept (parseV1Words parts) := by
  by_cases hSix : parts.length = 6
  · obtain ⟨proxy, protocol, source, destination, sourcePort, destinationPort, rfl⟩ :
        ∃ a b c d e f, parts = [a, b, c, d, e, f] := by
      match parts, hSix with
      | [a, b, c, d, e, f], _ => exact ⟨a, b, c, d, e, f, rfl⟩
    unfold parseV1WordsIndexed parseV1Words
    rw [failIf_congr (or_iff_right (not_not.mpr hSix))]
    refine Panicking.bind_ofExcept fun _ _ => ?_
    rw [Panicking.index_bind (by simp)]
    refine Panicking.bind_ofExcept fun _ _ => ?_
    rw [Panicking.index_bind (by simp)]
    refine Panicking.bind_ofExcept fun _ _ => ?_
    rw [Panicking.index_bind (by simp)]
    refine Panicking.bind_ofExcept fun _ _ => ?_
    rw [Panicking.index_bind (by simp)]
    refine Panicking.bind_ofExcept fun _ _ => ?_
    rw [Panicking.index_bind (by simp)]
    refine Panicking.bind_ofExcept fun _ _ => ?_
    rw [Panicking.index_bind (by simp)]
    exact Panicking.bind_ofExcept fun _ _ => rfl
  · have hWords : parseV1Words parts = .error .invalid := by
      unfold parseV1Words
      split
      · exact absurd rfl hSix
      · rfl
    unfold parseV1WordsIndexed
    rw [hWords, failIf, if_pos (.inl hSix)]
    rfl

theorem parseProxyV1LineIndexed_eq (line : List UInt8) :
    parseProxyV1LineIndexed line = Panicking.ofExcept (parseProxyV1Line line) := by
  refine Panicking.bind_ofExcept fun _ _ => Panicking.bind_ofExcept fun _ hLength =>
    Panicking.bind_ofExcept fun _ _ => Panicking.bind_ofExcept fun _ _ => ?_
  rw [failIf_eq_ok, not_or, Nat.not_lt] at hLength
  rw [checkedSub_of_le (by omega), Panicking.ofMayPanic_some_bind,
    Panicking.subslice_bind (Nat.zero_le _) (by omega), List.drop_zero]
  cases fromUtf8 (line.take (line.length - 2)) with
  | none => rfl
  | some text =>
      dsimp only
      split_ifs with hUnknown
      · rfl
      · exact parseV1WordsIndexed_eq _

end Bounds

/-! The preambles of two endpoints. -/

/-- Two endpoints of one family. -/
inductive ProxyPair where
  | v4 (source destination : Ipv4Addr) (sourcePort destinationPort : UInt16)
  | v6 (source destination : Ipv6Addr) (sourcePort destinationPort : UInt16)

namespace ProxyPair

def endpoints (kind : ProxySourceKind) : ProxyPair → ProxyEndpoints
  | v4 source destination sourcePort destinationPort =>
      ⟨some ⟨.v4 source, sourcePort.toNat⟩, some ⟨.v4 destination, destinationPort.toNat⟩, kind⟩
  | v6 source destination sourcePort destinationPort =>
      ⟨some ⟨.v6 source, sourcePort.toNat⟩, some ⟨.v6 destination, destinationPort.toNat⟩, kind⟩

/-- The lowest octets of a number in network order. -/
def beOctets (count n : Nat) : List UInt8 := (beDigits 256 count n).map UInt8.ofNat

/-- The addresses and ports of a binary header. -/
def addresses : ProxyPair → List UInt8
  | v4 source destination sourcePort destinationPort =>
      beOctets 4 source.bits.toNat ++ (beOctets 4 destination.bits.toNat ++
        (beOctets 2 sourcePort.toNat ++ beOctets 2 destinationPort.toNat))
  | v6 source destination sourcePort destinationPort =>
      beOctets 16 source.bits.toNat ++ (beOctets 16 destination.bits.toNat ++
        (beOctets 2 sourcePort.toNat ++ beOctets 2 destinationPort.toNat))

def family : ProxyPair → Nat
  | v4 .. => 1
  | v6 .. => 2

/-- `TCP` over the family. -/
def famProto : ProxyPair → UInt8
  | v4 .. => 0x11
  | v6 .. => 0x21

theorem toNat_famProto (pair : ProxyPair) : pair.famProto.toNat = pair.family * 16 + 1 := by
  cases pair <;> rfl

theorem family_le (pair : ProxyPair) : pair.family ≤ 2 := by
  cases pair with
  | v4 => exact Nat.le_succ 1
  | v6 => exact Nat.le_refl 2

/-- The header of version 2 with the `PROXY` command and a tail of TLVs. -/
def v2Header (pair : ProxyPair) (tlvs : List UInt8) : List UInt8 :=
  proxyV2Signature ++ [0x21, pair.famProto] ++
    (beOctets 2 (pair.addresses.length + tlvs.length) ++ (pair.addresses ++ tlvs))

/-- The six words of a line of version 1. -/
def words : ProxyPair → List Str
  | v4 source destination sourcePort destinationPort =>
      ["PROXY", "TCP4", source.display, destination.display, decimal sourcePort.toNat,
        decimal destinationPort.toNat]
  | v6 source destination sourcePort destinationPort =>
      ["PROXY", "TCP6", source.display, destination.display, decimal sourcePort.toNat,
        decimal destinationPort.toNat]

def v1Text (pair : ProxyPair) : Str := List.intercalate [' '] pair.words

def v1Line (pair : ProxyPair) : List UInt8 := utf8 pair.v1Text ++ crlf

end ProxyPair

/-! The binary header is read back. -/

open ProxyPair (beOctets)

@[simp] theorem length_beOctets (count n : Nat) : (beOctets count n).length = count := by
  simp [beOctets]

theorem bigEndian_beOctets (count n : Nat) :
    bigEndian 256 ((beOctets count n).map UInt8.toNat) = n % 256 ^ count := by
  have hSame : (beOctets count n).map UInt8.toNat = beDigits 256 count n := by
    rw [beOctets, List.map_map]
    refine (List.map_congr_left fun digit hDigit => ?_).trans (List.map_id _)
    exact Nat.mod_eq_of_lt (lt_of_mem_beDigits (by decide) hDigit)
  rw [hSame, bigEndian_beDigits]

/-- A field of a buffer, behind what is in front of it. -/
theorem take_drop_field {front rest : List UInt8} {count i : Nat} (n : Nat)
    (hFront : front.length = i) :
    ((front ++ (beOctets count n ++ rest)).drop i).take count = beOctets count n := by
  rw [List.drop_left' hFront, List.take_left' (length_beOctets count n)]

theorem beU16_field {front rest : List UInt8} {i n : Nat} (hFront : front.length = i)
    (hFits : n < 65536) : beU16 (front ++ (beOctets 2 n ++ rest)) i = n := by
  have hField := @take_drop_field front rest 2 i n hFront
  have hValue := bigEndian_beOctets 2 n
  generalize hBuf : front ++ (beOctets 2 n ++ rest) = buf at hField
  have hLength : i + 1 < buf.length := by
    rw [← hBuf, List.length_append, List.length_append, length_beOctets]
    omega
  rw [← hField, List.drop_eq_getElem_cons (by omega), List.drop_eq_getElem_cons hLength] at hValue
  rw [beU16, List.getD_eq_getElem _ _ (by omega), List.getD_eq_getElem _ _ hLength]
  simp only [List.take_succ_cons, List.take_zero, List.map_cons, List.map_nil, bigEndian,
    List.foldl_cons, List.foldl_nil, Nat.zero_mul, Nat.zero_add] at hValue
  rw [hValue]
  exact Nat.mod_eq_of_lt hFits

theorem ipv4At_field {front rest : List UInt8} {i : Nat} (addr : Ipv4Addr)
    (hFront : front.length = i) :
    ipv4At (front ++ (beOctets 4 addr.bits.toNat ++ rest)) i = .v4 addr := by
  have hLt : addr.bits.toNat < 256 ^ 4 := addr.bits.isLt
  rw [ipv4At, take_drop_field _ hFront, Ipv4Addr.ofOctets, bigEndian_beOctets,
    Nat.mod_eq_of_lt hLt, BitVec.ofNat_toNat, BitVec.setWidth_eq]

theorem ipv6At_field {front rest : List UInt8} {i : Nat} (addr : Ipv6Addr)
    (hFront : front.length = i) :
    ipv6At (front ++ (beOctets 16 addr.bits.toNat ++ rest)) i = .v6 addr := by
  have hLt : addr.bits.toNat < 256 ^ 16 := addr.bits.isLt
  rw [ipv6At, take_drop_field _ hFront, bigEndian_beOctets, Nat.mod_eq_of_lt hLt,
    BitVec.ofNat_toNat, BitVec.setWidth_eq]

/-- The ports stand behind two addresses of the same size. -/
theorem beU16_ports (count a b : Nat) (p q : UInt16) (tlvs : List UInt8) :
    beU16 (beOctets count a ++ (beOctets count b ++ (beOctets 2 p.toNat ++
        (beOctets 2 q.toNat ++ tlvs)))) (count + count) = p.toNat ∧
      beU16 (beOctets count a ++ (beOctets count b ++ (beOctets 2 p.toNat ++
        (beOctets 2 q.toNat ++ tlvs)))) (count + count + 2) = q.toNat := by
  have hFirst := @beU16_field (beOctets count a ++ beOctets count b)
    (beOctets 2 q.toNat ++ tlvs) (count + count) p.toNat (by simp) p.toNat_lt
  have hSecond := @beU16_field (beOctets count a ++ (beOctets count b ++ beOctets 2 p.toNat)) tlvs
    (count + count + 2) q.toNat (by simp; omega) q.toNat_lt
  simp only [List.append_assoc] at hFirst hSecond
  exact ⟨hFirst, hSecond⟩

theorem parseV2Addresses_addresses (pair : ProxyPair) (tlvs : List UInt8) :
    parseV2Addresses pair.family 1
        (pair.addresses.length + tlvs.length) (pair.addresses ++ tlvs) =
      .ok (pair.endpoints .proxyV2) := by
  cases pair with
  | v4 source destination sourcePort destinationPort =>
      have hLong : ¬(ProxyPair.v4 source destination sourcePort destinationPort).addresses.length +
          tlvs.length < 12 := by
        simp [ProxyPair.addresses]
      obtain ⟨hSourcePort, hDestinationPort⟩ := beU16_ports 4 source.bits.toNat
        destination.bits.toNat sourcePort destinationPort tlvs
      refine (if_neg hLong).trans ?_
      simp only [ProxyPair.addresses, List.append_assoc]
      rw [hSourcePort, hDestinationPort, ipv4At_field destination (length_beOctets 4 _)]
      rw [← List.nil_append (beOctets 4 source.bits.toNat ++ _), @ipv4At_field [] _ 0 source rfl]
      rfl
  | v6 source destination sourcePort destinationPort =>
      have hLong : ¬(ProxyPair.v6 source destination sourcePort destinationPort).addresses.length +
          tlvs.length < 36 := by
        simp [ProxyPair.addresses]
      obtain ⟨hSourcePort, hDestinationPort⟩ := beU16_ports 16 source.bits.toNat
        destination.bits.toNat sourcePort destinationPort tlvs
      refine (if_neg hLong).trans ?_
      simp only [ProxyPair.addresses, List.append_assoc]
      rw [hSourcePort, hDestinationPort, ipv6At_field destination (length_beOctets 16 _)]
      rw [← List.nil_append (beOctets 16 source.bits.toNat ++ _), @ipv6At_field [] _ 0 source rfl]
      rfl

/-- A header with TLVs within the limit is read back, whatever follows it. -/
theorem parseProxyV2Header_v2Header (pair : ProxyPair) (tlvs rest : List UInt8)
    (hLen : pair.addresses.length + tlvs.length ≤ proxyV2MaxLen) :
    parseProxyV2Header (pair.v2Header tlvs ++ rest) =
      .ok (pair.endpoints .proxyV2,
        proxyV2HeaderLen + (pair.addresses.length + tlvs.length)) := by
  have hBuf : pair.v2Header tlvs ++ rest = (proxyV2Signature ++ [0x21, pair.famProto]) ++
      (beOctets 2 (pair.addresses.length + tlvs.length) ++ (pair.addresses ++ tlvs ++ rest)) := by
    simp [ProxyPair.v2Header]
  have hField : v2Length (pair.v2Header tlvs ++ rest) = pair.addresses.length + tlvs.length := by
    rw [hBuf]
    refine beU16_field rfl ?_
    rw [proxyV2MaxLen] at hLen
    omega
  have hSignature : (pair.v2Header tlvs ++ rest).take 12 = proxyV2Signature := by
    rw [hBuf]
    rfl
  have hVerCmd : (pair.v2Header tlvs ++ rest).getD 12 0 = 0x21 := by
    rw [hBuf]
    rfl
  have hFamProto : (pair.v2Header tlvs ++ rest).getD 13 0 = pair.famProto := by
    rw [hBuf]
    rfl
  have hLength : (pair.v2Header tlvs ++ rest).length =
      proxyV2HeaderLen + (pair.addresses.length + tlvs.length) + rest.length := by
    rw [hBuf]
    simp [proxyV2Signature, proxyV2HeaderLen]
    omega
  have hBody : ((pair.v2Header tlvs ++ rest).take (proxyV2HeaderLen +
      (pair.addresses.length + tlvs.length))).drop proxyV2HeaderLen = pair.addresses ++ tlvs := by
    have hFront : proxyV2HeaderLen = (proxyV2Signature ++ [0x21, pair.famProto] ++
        beOctets 2 (pair.addresses.length + tlvs.length)).length := by
      simp [proxyV2Signature, proxyV2HeaderLen]
    rw [List.drop_take, Nat.add_sub_cancel_left, hBuf, hFront, ← List.append_assoc,
      List.drop_left, List.take_left' (List.length_append)]
  have hFamily : pair.famProto.toNat / 16 = pair.family ∧ pair.famProto.toNat % 16 = 1 := by
    rw [pair.toNat_famProto]
    omega
  have hKnown := pair.family_le
  simp only [parseProxyV2Header, check_bind_eq_ok, failIf_eq_ok, hField, hSignature, hVerCmd,
    hFamProto, hLength, hBody, parseV2Addresses_addresses pair tlvs, hFamily]
  exact ⟨by omega, by simp, by decide, by decide, by omega, by omega, by omega, by omega, rfl⟩

/-! A header decides by the octets it takes. -/

section Prefix

variable {front : List UInt8} (more : List UInt8) (hHeader : proxyV2HeaderLen ≤ front.length)
include hHeader

theorem header_append :
    (front ++ more).take 12 = front.take 12 ∧ (front ++ more).getD 12 0 = front.getD 12 0 ∧
      (front ++ more).getD 13 0 = front.getD 13 0 ∧ v2Length (front ++ more) = v2Length front := by
  rw [proxyV2HeaderLen] at hHeader
  have hGet : ∀ i < 16, (front ++ more).getD i 0 = front.getD i 0 := fun i hi =>
    List.getD_append front more 0 i (by omega)
  refine ⟨List.take_append_of_le_length (by omega), hGet 12 (by decide), hGet 13 (by decide), ?_⟩
  rw [v2Length, v2Length, beU16, beU16, hGet 14 (by decide), hGet (14 + 1) (by decide)]

end Prefix

/-- An extension of a header that is read gives the same result. -/
theorem parseProxyV2Header_append {buf : List UInt8} {endpoints : ProxyEndpoints} {consumed : Nat}
    (h : parseProxyV2Header buf = .ok (endpoints, consumed)) (more : List UInt8) :
    parseProxyV2Header (buf ++ more) = .ok (endpoints, consumed) := by
  simp only [parseProxyV2Header, check_bind_eq_ok, failIf_eq_ok, Nat.not_lt] at h ⊢
  obtain ⟨hLength, hSignature, hVersion, hCommand, hFamily, hProtocol, hLen, hTotal, hRest⟩ := h
  obtain ⟨hTake, hVerCmd, hFamProto, hField⟩ := header_append more hLength
  rw [hTake, hVerCmd, hFamProto, hField, List.take_append_of_le_length hTotal]
  refine ⟨?_, hSignature, hVersion, hCommand, hFamily, hProtocol, hLen, ?_, hRest⟩
  · exact hLength.trans (List.length_append ▸ Nat.le_add_right _ _)
  · exact hTotal.trans (List.length_append ▸ Nat.le_add_right _ _)

/-- A header that is read is incomplete before its last octet. -/
theorem parseProxyV2Header_incomplete {front more : List UInt8} {endpoints : ProxyEndpoints}
    {consumed : Nat} (h : parseProxyV2Header (front ++ more) = .ok (endpoints, consumed))
    (hShort : front.length < consumed) : parseProxyV2Header front = .error .incomplete := by
  by_cases hLength : front.length < proxyV2HeaderLen
  · simp only [parseProxyV2Header, check_bind_eq_error, failIf_eq_error]
    exact .inl ⟨hLength, trivial⟩
  · obtain ⟨hTake, hVerCmd, hFamProto, hField⟩ := header_append more (Nat.not_lt.mp hLength)
    simp only [parseProxyV2Header, check_bind_eq_ok, failIf_eq_ok] at h
    obtain ⟨-, hSignature, hVersion, hCommand, hFamily, hProtocol, hLen, hTotal, hRest⟩ := h
    have hConsumed : consumed = proxyV2HeaderLen + v2Length front := by
      rw [← hField]
      split_ifs at hRest
      · cases hRest
        rfl
      · obtain ⟨_, -, hPure⟩ := bind_eq_ok.mp hRest
        cases hPure
        rfl
    rw [hTake] at hSignature
    rw [hVerCmd] at hVersion hCommand
    rw [hFamProto] at hFamily hProtocol
    rw [hField] at hLen
    simp only [parseProxyV2Header, check_bind_eq_error, failIf_eq_error, failIf_eq_ok]
    refine .inr ⟨hLength, .inr ⟨hSignature, .inr ⟨hVersion, .inr ⟨hCommand, .inr ⟨hFamily,
      .inr ⟨hProtocol, .inr ⟨hLen, .inl ⟨?_, trivial⟩⟩⟩⟩⟩⟩⟩⟩
    omega

/-! The line is read back. -/

theorem parsePortStrict_decimal (port : UInt16) :
    parsePortStrict (decimal port.toNat) = .ok port.toNat := by
  have hPort : port.toNat < 65536 := port.toNat_lt
  have hLength : (decimal port.toNat).length ≤ 5 :=
    (Nat.length_toDigits_le_iff (by decide) (by decide)).mpr (by omega)
  rw [parsePortStrict, isDigits_decimal, decimalValue_decimal, if_neg (by simp; omega)]

/-- A word of a line: not empty, without blanks, and ASCII. -/
def IsWord (word : Str) : Prop := word ≠ [] ∧ ' ' ∉ word ∧ ∀ c ∈ word, c.toNat < 128

theorem isWord_decimal (n : Nat) : IsWord (decimal n) := by
  refine ⟨Nat.toDigits_ne_nil, not_mem_toDigits (by decide) (by decide) (by decide) n, ?_⟩
  intro c hc
  exact lt_of_toDigit ((bigEndian_toDigits (by decide : 1 < 10) (by decide) n).1 c hc)

theorem isWord_ipv4 (addr : Ipv4Addr) : IsWord addr.display := by
  have hParse := parseIpv4_display addr
  refine ⟨fun hNil => ?_, addr.not_mem_display (by decide) (by decide), parseIpv4_ascii hParse⟩
  rw [hNil, show parseIpv4 [] = none by decide] at hParse
  cases hParse

theorem isWord_ipv6 (addr : Ipv6Addr) : IsWord addr.display := by
  have hParse := parseIpv6_display addr
  refine ⟨fun hNil => ?_, addr.not_mem_display (by decide) (by decide) (by decide) (by decide),
    parseIpv6_ascii hParse⟩
  rw [hNil, show parseIpv6 [] = none by decide] at hParse
  cases hParse

theorem ProxyPair.isWord (pair : ProxyPair) : ∀ word ∈ pair.words, IsWord word := by
  have hProxy : IsWord "PROXY" := ⟨by decide, by decide, by decide⟩
  have hTcp4 : IsWord "TCP4" := ⟨by decide, by decide, by decide⟩
  have hTcp6 : IsWord "TCP6" := ⟨by decide, by decide, by decide⟩
  intro word hWord
  cases pair with
  | v4 source destination sourcePort destinationPort =>
      simp only [ProxyPair.words, List.mem_cons, List.not_mem_nil, or_false] at hWord
      rcases hWord with rfl | rfl | rfl | rfl | rfl | rfl
      · exact hProxy
      · exact hTcp4
      · exact isWord_ipv4 source
      · exact isWord_ipv4 destination
      · exact isWord_decimal _
      · exact isWord_decimal _
  | v6 source destination sourcePort destinationPort =>
      simp only [ProxyPair.words, List.mem_cons, List.not_mem_nil, or_false] at hWord
      rcases hWord with rfl | rfl | rfl | rfl | rfl | rfl
      · exact hProxy
      · exact hTcp6
      · exact isWord_ipv6 source
      · exact isWord_ipv6 destination
      · exact isWord_decimal _
      · exact isWord_decimal _

theorem parseV1Words_words (pair : ProxyPair) :
    parseV1Words pair.words = .ok (pair.endpoints .proxyV1) := by
  have hWords := pair.isWord
  have hNone : pair.words.any List.isEmpty = false := by
    rw [List.any_eq_false]
    intro word hWord
    simpa using (hWords word hWord).1
  cases pair with
  | v4 source destination sourcePort destinationPort =>
      simp only [ProxyPair.words] at hNone
      simp only [ProxyPair.words, parseV1Words, hNone, v1Family, parseIpOf, parseIpv4_display,
        parsePortStrict_decimal]
      rfl
  | v6 source destination sourcePort destinationPort =>
      simp only [ProxyPair.words] at hNone
      simp only [ProxyPair.words, parseV1Words, hNone, v1Family, parseIpOf, parseIpv6_display,
        parsePortStrict_decimal]
      rfl

/-- Words without blanks are split where they were joined. -/
theorem splitOn_v1Text (pair : ProxyPair) : pair.v1Text.splitOn ' ' = pair.words := by
  refine List.splitOn_intercalate ' ' (fun word hWord => (pair.isWord word hWord).2.1) ?_
  cases pair <;> simp [ProxyPair.words]

/-- The text names its protocol behind the first word. -/
theorem v1Text_eq (pair : ProxyPair) : ∃ rest, pair.v1Text = ("PROXY TCP" : Str) ++ rest := by
  cases pair with
  | v4 source destination sourcePort destinationPort => exact ⟨_, rfl⟩
  | v6 source destination sourcePort destinationPort => exact ⟨_, rfl⟩

theorem length_v1Text_le (pair : ProxyPair) : pair.v1Text.length ≤ 102 := by
  have hPort : ∀ port : UInt16, (decimal port.toNat).length ≤ 5 := fun port =>
    (Nat.length_toDigits_le_iff (by decide) (by decide)).mpr (by have := port.toNat_lt; omega)
  cases pair with
  | v4 source destination sourcePort destinationPort =>
      have hSource := source.length_display_le
      have hDestination := destination.length_display_le
      have hFirst := hPort sourcePort
      have hSecond := hPort destinationPort
      simp only [ProxyPair.v1Text, ProxyPair.words, List.intercalate_cons_cons,
        List.intercalate_singleton, List.length_append, List.length_cons, List.length_nil]
      have hFixed : ("PROXY" : Str).length = 5 ∧ ("TCP4" : Str).length = 4 := ⟨rfl, rfl⟩
      omega
  | v6 source destination sourcePort destinationPort =>
      have hSource := source.length_display_le
      have hDestination := destination.length_display_le
      have hFirst := hPort sourcePort
      have hSecond := hPort destinationPort
      simp only [ProxyPair.v1Text, ProxyPair.words, List.intercalate_cons_cons,
        List.intercalate_singleton, List.length_append, List.length_cons, List.length_nil]
      have hFixed : ("PROXY" : Str).length = 5 ∧ ("TCP6" : Str).length = 4 := ⟨rfl, rfl⟩
      omega

theorem ascii_intercalate {parts : List Str} (h : ∀ part ∈ parts, ∀ c ∈ part, c.toNat < 128) :
    ∀ c ∈ List.intercalate [' '] parts, c.toNat < 128 := by
  induction parts with
  | nil => simp
  | cons part parts ih =>
      have hRest := ih fun part hMember => h part (List.mem_cons_of_mem _ hMember)
      cases parts with
      | nil => simpa using h part List.mem_cons_self
      | cons next parts =>
          intro c hc
          rw [List.intercalate_cons_cons, List.append_assoc, List.mem_append, List.mem_append,
            List.mem_singleton] at hc
          rcases hc with hFirst | rfl | hBehind
          · exact h part List.mem_cons_self c hFirst
          · decide
          · exact hRest c hBehind

theorem parseProxyV1Line_v1Line (pair : ProxyPair) :
    parseProxyV1Line pair.v1Line = .ok (pair.endpoints .proxyV1) := by
  have hAscii : ∀ c ∈ pair.v1Text, c.toNat < 128 :=
    ascii_intercalate fun word hWord => (pair.isWord word hWord).2.2
  have hText := utf8_of_ascii hAscii
  have hLength := length_v1Text_le pair
  obtain ⟨rest, hRest⟩ := v1Text_eq pair
  have hLine : pair.v1Line.length = pair.v1Text.length + 2 := by
    rw [ProxyPair.v1Line, hText, List.length_append, List.length_map]
    rfl
  have hLong : 9 ≤ pair.v1Text.length := by
    rw [hRest, List.length_append]
    exact Nat.le_add_right 9 _
  have hStart : proxyV1Start <+: pair.v1Line := by
    rw [ProxyPair.v1Line, hRest, utf8_append, List.append_assoc]
    exact ⟨[0x54, 0x43, 0x50] ++ (utf8 rest ++ crlf), rfl⟩
  have hInner : pair.v1Line.take (pair.v1Line.length - 2) = utf8 pair.v1Text := by
    rw [hLine, Nat.add_sub_cancel, ProxyPair.v1Line]
    exact List.take_left' (by rw [hText, List.length_map])
  have hBytes : ¬pair.v1Line.any (fun byte => 128 ≤ byte) = true := by
    rw [List.any_eq_true]
    rintro ⟨byte, hByte, hHigh⟩
    have hHigh : 128 ≤ byte.toNat := UInt8.le_iff_toNat_le.mp (of_decide_eq_true hHigh)
    rw [ProxyPair.v1Line, hText, List.mem_append, List.mem_map] at hByte
    rcases hByte with ⟨c, hc, rfl⟩ | hEnd
    · have hLow := hAscii c hc
      rw [toNat_ofNat_of_ascii hLow] at hHigh
      omega
    · rcases List.mem_pair.mp hEnd with rfl | rfl <;> exact absurd hHigh (by decide)
  have hKnown : ¬(pair.v1Text = "PROXY UNKNOWN" ∨ ("PROXY UNKNOWN " : Str) <+: pair.v1Text) := by
    rw [hRest]
    simp
  simp only [parseProxyV1Line, check_bind_eq_ok, failIf_eq_ok]
  refine ⟨by rw [hLine, proxyV1MaxBytes]; omega, ?_, not_not.mpr hStart, hBytes, ?_⟩
  · rw [not_or, hLine, not_not]
    exact ⟨by omega, List.suffix_append _ _⟩
  · rw [hInner, fromUtf8_utf8]
    simp only [if_neg hKnown, splitOn_v1Text, parseV1Words_words]

/-- The preambles of any two endpoints are read back; a header is incomplete before its
last octet and indifferent to what follows it; and neither parser indexes out of bounds. -/
theorem proxy_preambles_round_trip :
    (∀ (pair : ProxyPair) (tlvs rest : List UInt8),
      pair.addresses.length + tlvs.length ≤ proxyV2MaxLen →
        parseProxyV2HeaderIndexed (pair.v2Header tlvs ++ rest) =
          Panicking.ofExcept (.ok (pair.endpoints .proxyV2,
            proxyV2HeaderLen + (pair.addresses.length + tlvs.length)))) ∧
      (∀ pair : ProxyPair,
        parseProxyV1LineIndexed pair.v1Line = Panicking.ofExcept (.ok (pair.endpoints .proxyV1))) ∧
      (∀ buf endpoints consumed,
        parseProxyV2HeaderIndexed buf = Panicking.ofExcept (.ok (endpoints, consumed)) →
          (∀ front, front <+: buf → front.length < consumed →
            parseProxyV2HeaderIndexed front = Panicking.ofExcept (.error .incomplete)) ∧
          ∀ more, parseProxyV2HeaderIndexed (buf ++ more) =
            Panicking.ofExcept (.ok (endpoints, consumed))) ∧
      (∀ buf, (parseProxyV2HeaderIndexed buf).run.isSome) ∧
      ∀ line, (parseProxyV1LineIndexed line).run.isSome := by
  refine ⟨?_, ?_, ?_, ?_, ?_⟩
  · intro pair tlvs rest hLen
    rw [parseProxyV2HeaderIndexed_eq, parseProxyV2Header_v2Header pair tlvs rest hLen]
  · intro pair
    rw [parseProxyV1LineIndexed_eq, parseProxyV1Line_v1Line]
  · intro buf endpoints consumed hParse
    rw [parseProxyV2HeaderIndexed_eq] at hParse
    have hParse : parseProxyV2Header buf = .ok (endpoints, consumed) := Option.some.inj hParse
    constructor
    · rintro front ⟨more, rfl⟩ hShort
      rw [parseProxyV2HeaderIndexed_eq, parseProxyV2Header_incomplete hParse hShort]
    · intro more
      rw [parseProxyV2HeaderIndexed_eq, parseProxyV2Header_append hParse]
  · intro buf
    rw [parseProxyV2HeaderIndexed_eq]
    rfl
  · intro line
    rw [parseProxyV1LineIndexed_eq]
    rfl

end Eggserve.Primitives
