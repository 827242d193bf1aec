import Eggserve.Rust.Bits
import Eggserve.Rust.NetText
import Eggserve.Rust.Panicking

/-! The peers that are trusted to supply proxy metadata: an IP address or a prefix of
addresses. -/
namespace Eggserve.Primitives
open Rust

structure IpPrefix where
  network : IpAddr
  prefixLen : Nat
  deriving DecidableEq

/-- The texts of a rejected peer, with what they print. -/
inductive PeerFault where
  | empty
  | address (value : Str)
  | length (value : Str)
  | range (prefixLen : Nat) (value : Str)
  | dnsName (value : Str)
  deriving DecidableEq

inductive TrustedProxyConfigError where
  | invalidPeer (fault : PeerFault)
  deriving DecidableEq

def maskAddr (addr : IpAddr) (prefixLen : Nat) : MayPanic IpAddr :=
  match addr with
  | .v4 v4 =>
      if prefixLen = 0 then some (.v4 ⟨0⟩)
      else do
        let shift ← checkedSub 32 prefixLen
        let front ← shiftRight v4.bits shift
        let masked ← shiftLeft front shift
        return .v4 ⟨masked⟩
  | .v6 v6 =>
      if prefixLen = 0 then some (.v6 ⟨0⟩)
      else do
        let shift ← checkedSub 128 prefixLen
        let front ← shiftRight v6.bits shift
        let masked ← shiftLeft front shift
        return .v6 ⟨masked⟩

namespace IpPrefix

def parse (value : Str) : Panicking TrustedProxyConfigError IpPrefix :=
  let value := trim value
  if value = [] then throw (.invalidPeer .empty)
  else
    match splitOnce '/' value with
    | some (addrPart, prefixPart) => do
        let addr ← Panicking.ofExcept
          (okOr (parseIpAddr (trim addrPart)) (.invalidPeer (.address value)))
        let prefixLen ← Panicking.ofExcept
          (okOr (parseU8 (trim prefixPart)) (.invalidPeer (.length value)))
        if addr.width < prefixLen then throw (.invalidPeer (.range prefixLen value))
        else do
          let network ← Panicking.ofMayPanic (maskAddr addr prefixLen)
          return ⟨network, prefixLen⟩
    | none => do
        let addr ← Panicking.ofExcept (okOr (parseIpAddr value) (.invalidPeer (.dnsName value)))
        return ⟨addr, addr.width⟩

/-- An address is in the prefix. The families do not mix. -/
def matchesIp (self : IpPrefix) (ip : IpAddr) : MayPanic Bool :=
  match self.network, ip with
  | .v4 net, .v4 addr =>
      if self.prefixLen = 0 then some true
      else do
        let shift ← checkedSub 32 self.prefixLen
        let netFront ← shiftRight net.bits shift
        let addrFront ← shiftRight addr.bits shift
        return netFront == addrFront
  | .v6 net, .v6 addr =>
      if self.prefixLen = 0 then some true
      else do
        let shift ← checkedSub 128 self.prefixLen
        let netFront ← shiftRight net.bits shift
        let addrFront ← shiftRight addr.bits shift
        return netFront == addrFront
  | _, _ => some false

def display (self : IpPrefix) : Str :=
  if self.prefixLen = self.network.width then self.network.display
  else self.network.display ++ ("/" : Str) ++ decimal self.prefixLen

end IpPrefix

namespace IpPrefix

/-- The text names an address and a number of its bits; a bare address names all of them. -/
inductive Names (value : Str) : IpAddr → Nat → Prop
  | bare {addr : IpAddr} (hSlash : '/' ∉ value) (hAddr : parseIpAddr value = some addr) :
      Names value addr addr.width
  | cidr {first last : Str} {addr : IpAddr} {len : Nat} (hValue : value = first ++ '/' :: last)
      (hSlash : '/' ∉ first) (hAddr : parseIpAddr (trim first) = some addr)
      (hLen : parseU8 (trim last) = some len) (hFits : len ≤ addr.width) : Names value addr len

/-- The stored network is the address in front of zeroes. -/
structure Stores (stored : IpPrefix) (addr : IpAddr) (len : Nat) : Prop where
  sameLen : stored.prefixLen = len
  fits : len ≤ addr.width
  front : stored.network.AgreesOn len addr
  clear : ∀ i, len ≤ i → stored.network.bit i = false

end IpPrefix

/-! The shifts are by less than the width, as a length of zero has a branch of its own. -/

theorem maskAddr_eq {addr : IpAddr} {len : Nat} (hLen : len ≤ addr.width) :
    maskAddr addr len = some (addr.front len) := by
  cases addr with
  | v4 addr =>
      rw [maskAddr]
      by_cases hZero : len = 0
      · rw [if_pos hZero, hZero, IpAddr.front, keepFront_zero]
      · have hShift : 32 - len < 32 := by omega
        have hSub : checkedSub 32 len = some (32 - len) := checkedSub_of_le hLen
        simp only [if_neg hZero, hSub, Option.bind_eq_bind, Option.bind_some,
          shiftRight_of_lt _ hShift, shiftLeft_of_lt _ hShift]
        rfl
  | v6 addr =>
      rw [maskAddr]
      by_cases hZero : len = 0
      · rw [if_pos hZero, hZero, IpAddr.front, keepFront_zero]
      · have hShift : 128 - len < 128 := by omega
        have hSub : checkedSub 128 len = some (128 - len) := checkedSub_of_le hLen
        simp only [if_neg hZero, hSub, Option.bind_eq_bind, Option.bind_some,
          shiftRight_of_lt _ hShift, shiftLeft_of_lt _ hShift]
        rfl

/-- Words of which the last bits are shifted out. -/
theorem match_bits {w len : Nat} (hLen : len ≤ w) (hPositive : len ≠ 0) (net addr : BitVec w) :
    (do let shift ← checkedSub w len
        let netFront ← shiftRight net shift
        let addrFront ← shiftRight addr shift
        return netFront == addrFront) = some (decide (AgreeOn len addr net)) := by
  have hShift : w - len < w := by omega
  have hAgree : (net >>> (w - len) == addr >>> (w - len)) = decide (AgreeOn len addr net) := by
    rw [Bool.eq_iff_iff, beq_iff_eq, decide_eq_true_eq, eq_comm]
    exact shiftRight_eq_iff hLen addr net
  simp only [checkedSub_of_le hLen, Option.bind_eq_bind, Option.bind_some,
    shiftRight_of_lt _ hShift, Option.pure_def, hAgree]

namespace IpPrefix

theorem matchesIp_eq {self : IpPrefix} (hLen : self.prefixLen ≤ self.network.width) (ip : IpAddr) :
    self.matchesIp ip = some (decide (ip.AgreesOn self.prefixLen self.network)) := by
  obtain ⟨network, len⟩ := self
  cases network with
  | v4 net =>
      cases ip with
      | v6 addr => rfl
      | v4 addr =>
          unfold matchesIp
          dsimp only
          by_cases hZero : len = 0
          · subst hZero
            exact congrArg some (decide_eq_true (agreeOn_zero _ _)).symm
          · rw [if_neg hZero]
            exact match_bits hLen hZero net.bits addr.bits
  | v6 net =>
      cases ip with
      | v4 addr => rfl
      | v6 addr =>
          unfold matchesIp
          dsimp only
          by_cases hZero : len = 0
          · subst hZero
            exact congrArg some (decide_eq_true (agreeOn_zero _ _)).symm
          · rw [if_neg hZero]
            exact match_bits hLen hZero net.bits addr.bits

theorem Stores.network_width {self : IpPrefix} {addr : IpAddr} {len : Nat}
    (h : self.Stores addr len) : self.prefixLen ≤ self.network.width := by
  rw [h.sameLen, h.front.width_eq]
  exact h.fits

theorem Stores.matchesIp_eq {self : IpPrefix} {addr : IpAddr} {len : Nat}
    (h : self.Stores addr len) (ip : IpAddr) :
    self.matchesIp ip = some (decide (ip.AgreesOn len addr)) := by
  rw [IpPrefix.matchesIp_eq h.network_width, h.sameLen]
  congr 1
  rw [decide_eq_decide]
  exact ⟨fun hNet => hNet.trans h.front, fun hAddr => hAddr.trans h.front.symm⟩

/-! The parser. -/

theorem parse_bare {value : Str} {addr : IpAddr} (hSlash : '/' ∉ trim value)
    (hAddr : parseIpAddr (trim value) = some addr) : parse value = pure ⟨addr, addr.width⟩ := by
  have hSome : trim value ≠ [] := by
    intro hNil
    rw [hNil] at hAddr
    cases hAddr
  rw [parse, if_neg hSome, splitOnce_of_not_mem hSlash, hAddr]
  rfl

theorem parse_cidr {value first last : Str} {addr : IpAddr} {len : Nat}
    (hValue : trim value = first ++ '/' :: last) (hSlash : '/' ∉ first)
    (hAddr : parseIpAddr (trim first) = some addr) (hLen : parseU8 (trim last) = some len)
    (hFits : len ≤ addr.width) : parse value = pure ⟨addr.front len, len⟩ := by
  have hSome : trim value ≠ [] := by simp [hValue]
  rw [parse, if_neg hSome, hValue, splitOnce_append last hSlash]
  simp only [hAddr, hLen]
  rw [okOr, okOr, Panicking.ofExcept_ok_bind, Panicking.ofExcept_ok_bind,
    if_neg (Nat.not_lt.mpr hFits), maskAddr_eq hFits, Panicking.ofMayPanic_some_bind]

/-- A named address is stored. -/
theorem parse_of_names {value : Str} {addr : IpAddr} {len : Nat} (h : Names (trim value) addr len) :
    ∃ stored : IpPrefix, parse value = pure stored ∧ stored.Stores addr len := by
  cases h with
  | bare hSlash hAddr =>
      refine ⟨_, parse_bare hSlash hAddr, rfl, Nat.le_refl _, addr.agreesOn_refl _, ?_⟩
      exact fun i hi => addr.bit_of_width_le hi
  | cidr hValue hSlash hAddr hLen hFits =>
      exact ⟨_, parse_cidr hValue hSlash hAddr hLen hFits, rfl, hFits,
        IpAddr.front_agreesOn hFits, IpAddr.front_clear hFits⟩

/-- Every other text is rejected. -/
theorem parse_cases (value : Str) :
    (∃ e, parse value = throw e) ∨ ∃ addr len, Names (trim value) addr len := by
  rw [parse]
  by_cases hEmpty : trim value = []
  · exact .inl ⟨_, if_pos hEmpty⟩
  · rw [if_neg hEmpty]
    by_cases hSlash : '/' ∈ trim value
    · obtain ⟨first, last, hValue, hFirst⟩ := List.eq_append_cons_of_mem hSlash
      rw [hValue, splitOnce_append last hFirst]
      dsimp only
      cases hAddr : parseIpAddr (trim first) with
      | none => exact .inl ⟨_, rfl⟩
      | some addr =>
          cases hLen : parseU8 (trim last) with
          | none => exact .inl ⟨_, rfl⟩
          | some len =>
              by_cases hFits : addr.width < len
              · refine .inl ⟨.invalidPeer (.range len (first ++ '/' :: last)), ?_⟩
                rw [okOr, okOr, Panicking.ofExcept_ok_bind, Panicking.ofExcept_ok_bind,
                  if_pos hFits]
              · exact .inr ⟨addr, len, .cidr rfl hFirst hAddr hLen (Nat.not_lt.mp hFits)⟩
    · rw [splitOnce_of_not_mem hSlash]
      dsimp only
      cases hAddr : parseIpAddr (trim value) with
      | none => exact .inl ⟨_, rfl⟩
      | some addr => exact .inr ⟨addr, addr.width, .bare hSlash hAddr⟩

/-! The text of a prefix. -/

theorem isIpv6Char_of_mem_display {addr : IpAddr} {c : Char} (h : c ∈ addr.display) :
    IsIpv6Char c := by
  cases addr with
  | v4 addr => exact (parseIpv4_chars (parseIpv4_display addr) c h).ipv6
  | v6 addr => exact parseIpv6_chars (parseIpv6_display addr) c h

theorem not_isWhitespace_of_mem_display {addr : IpAddr} {c : Char} (h : c ∈ addr.display) :
    isWhitespace c = false := by
  have hAddress := isIpv6Char_of_mem_display h
  have hAll : ∀ n < 128, (toDigit 16 (Char.ofNat n)).isSome = true ∨ Char.ofNat n = ':' ∨
      Char.ofNat n = '.' → isWhitespace (Char.ofNat n) = false := by
    decide +kernel
  have hChar := hAll c.toNat hAddress.lt
  rw [Char.ofNat_toNat] at hChar
  exact hChar hAddress

theorem slash_not_mem_display (addr : IpAddr) : '/' ∉ addr.display :=
  addr.not_mem_display (by decide) (by decide) (by decide) (by decide)

theorem not_isWhitespace_of_mem_prefix {self : IpPrefix} {c : Char} (h : c ∈ self.display) :
    isWhitespace c = false := by
  rw [display] at h
  split_ifs at h
  · exact not_isWhitespace_of_mem_display h
  · rcases List.mem_append.mp h with hFront | hDigit
    · rcases List.mem_append.mp hFront with hAddr | hSlash
      · exact not_isWhitespace_of_mem_display hAddr
      · rw [List.mem_singleton.mp hSlash]
        decide
    · exact not_isWhitespace_of_isDigit (isDigit_of_mem_decimal hDigit)

/-- The text of a stored prefix is read back. -/
theorem Stores.parse_display {self : IpPrefix} {addr : IpAddr} {len : Nat}
    (h : self.Stores addr len) : parse self.display = pure self := by
  have hTrim : trim self.display = self.display :=
    trim_of_no_blank fun _ hc => not_isWhitespace_of_mem_prefix hc
  have hTrimAddr : trim self.network.display = self.network.display :=
    trim_of_no_blank fun _ hc => not_isWhitespace_of_mem_display hc
  have hFits := h.network_width
  by_cases hFull : self.prefixLen = self.network.width
  · have hDisplay : self.display = self.network.display := if_pos hFull
    have hParse := @parse_bare self.network.display self.network
      (by rw [hTrimAddr]; exact slash_not_mem_display _)
      (by rw [hTrimAddr]; exact parseIpAddr_display _)
    rw [hDisplay, hParse, ← hFull]
  · have hDisplay : self.display = self.network.display ++ '/' :: decimal self.prefixLen := by
      rw [display, if_neg hFull, List.append_assoc]
      rfl
    have hByte : self.prefixLen ≤ u8Max := by
      have hWidth : self.network.width ≤ 128 := by
        cases self.network with
        | v4 _ => exact Nat.le_of_ble_eq_true rfl
        | v6 _ => exact Nat.le_refl 128
      exact (hFits.trans hWidth).trans (by decide)
    have hFront : self.network.front self.prefixLen = self.network :=
      IpAddr.front_of_clear hFits (h.sameLen ▸ h.clear)
    have hParse := @parse_cidr self.display self.network.display (decimal self.prefixLen)
      self.network self.prefixLen (hTrim.trans hDisplay) (slash_not_mem_display _)
      (by rw [hTrimAddr]; exact parseIpAddr_display _)
      (by rw [trim_decimal]; exact parseU8_decimal hByte) hFits
    rw [hParse, hFront]

/-- An accepted text names an address and a number of bits. The prefix holds exactly the
addresses of the same family that have these bits, no shift panics, and the text of the prefix
is read back. -/
theorem prefixes_mean_their_bits (value : Str) :
    (∃ result, parse value = Panicking.ofExcept result) ∧
      ∀ stored, parse value = pure stored → ∃ addr len, Names (trim value) addr len ∧
        len ≤ addr.width ∧ stored.prefixLen = len ∧
        (∀ ip, stored.matchesIp ip = some (decide (ip.AgreesOn len addr))) ∧
        (∀ i, len ≤ i → stored.network.bit i = false) ∧
        stored.network.AgreesOn len addr ∧ parse stored.display = pure stored := by
  rcases parse_cases value with ⟨e, hThrow⟩ | ⟨addr, len, hNames⟩
  · refine ⟨⟨.error e, hThrow⟩, fun stored hParse => ?_⟩
    rw [hThrow] at hParse
    cases hParse
  · obtain ⟨self, hParse, hStores⟩ := parse_of_names hNames
    refine ⟨⟨.ok self, hParse⟩, fun stored hStored => ?_⟩
    obtain rfl : self = stored :=
      Except.ok.inj (Panicking.ofExcept_eq_pure.mp (hParse.symm.trans hStored))
    exact ⟨addr, len, hNames, hStores.fits, hStores.sameLen, hStores.matchesIp_eq,
      hStores.clear, hStores.front, hStores.parse_display⟩

/-- Host bits of the address that is given make no difference. -/
theorem prefixes_mean_their_bits_host :
    parse " 10.1.2.3/8".toList = pure ⟨.v4 ⟨0x0a000000⟩, 8⟩ ∧
      ∃ addr len, Names (trim " 10.1.2.3/8".toList) addr len ∧ len ≤ addr.width ∧ 8 = len ∧
        (∀ ip, matchesIp ⟨.v4 ⟨0x0a000000⟩, 8⟩ ip = some (decide (ip.AgreesOn len addr))) ∧
        (∀ i, len ≤ i → (IpAddr.v4 ⟨0x0a000000⟩).bit i = false) ∧
        (IpAddr.v4 ⟨0x0a000000⟩).AgreesOn len addr ∧
        parse (display ⟨.v4 ⟨0x0a000000⟩, 8⟩) = pure ⟨.v4 ⟨0x0a000000⟩, 8⟩ := by
  have hText : " 10.1.2.3/8".toList = [' ', '1', '0', '.', '1', '.', '2', '.', '3', '/', '8'] :=
    String.toList_ofList
  have hParse : parse " 10.1.2.3/8".toList = pure ⟨.v4 ⟨0x0a000000⟩, 8⟩ := by
    rw [hText]
    rfl
  exact ⟨hParse, (prefixes_mean_their_bits " 10.1.2.3/8".toList).2 _ hParse⟩

end IpPrefix

end Eggserve.Primitives
