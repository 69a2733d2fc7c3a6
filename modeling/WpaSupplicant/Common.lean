import Mathlib.Data.Nat.Basic
import WpaSupplicant.Lib.Octets

namespace WpaSupplicant

open Lib.Octets

-- `WPA_CIPHER_*`: one cipher suite. A bit field of suites is a list of them.
inductive Cipher where
  | none
  | wep40
  | wep104
  | tkip
  | ccmp
  | aes128Cmac
  deriving DecidableEq, Repr

-- `enum wpa_alg`
inductive WpaAlg where
  | none
  | wep
  | tkip
  | ccmp
  | igtk
  | pmk
  deriving DecidableEq, Repr

-- `WPA_KEY_MGMT_*`. The value 0 of a station without WPA is `unset`.
inductive KeyMgmt where
  | unset
  | ieee8021x
  | psk
  | none
  | ieee8021xNoWpa
  | wpaNone
  | ieee8021xSha256
  | pskSha256
  | wps
  deriving DecidableEq, Repr

namespace KeyMgmt

-- `wpa_key_mgmt_wpa_ieee8021x`
def wpaIeee8021x : KeyMgmt → Bool
  | ieee8021x | ieee8021xSha256 => true
  | _ => false

-- `wpa_key_mgmt_wpa_psk`
def wpaPsk : KeyMgmt → Bool
  | psk | pskSha256 => true
  | _ => false

-- `wpa_key_mgmt_sha256`
def sha256 : KeyMgmt → Bool
  | ieee8021xSha256 | pskSha256 => true
  | _ => false

end KeyMgmt

-- `WPA_PROTO_*`, and `WPA_VERSION_*` on the Authenticator side
inductive Proto where
  | wpa
  | rsn
  deriving DecidableEq, Repr

-- `enum mfp_options`
inductive Mfp where
  | noMgmtFrameProtection
  | optional
  | required
  deriving DecidableEq, Repr

abbrev Addr := BitVec 48
abbrev Nonce := BitVec 256
abbrev ReplayCounter := BitVec 64
abbrev Octets := List UInt8

-- `struct os_time`
structure OsTime where
  sec : ℤ
  usec : ℤ
  deriving DecidableEq, Repr

def osTimeBefore (a b : OsTime) : Bool := a.sec < b.sec || (a.sec = b.sec && a.usec < b.usec)

def broadcastEtherAddr : Addr := 0xffffffffffff

abbrev KeyInfo := BitVec 16

namespace KeyInfo

def typeMask : KeyInfo := 0x0007
def typeHmacMd5Rc4 : KeyInfo := 0x0001
def typeHmacSha1Aes : KeyInfo := 0x0002
def typeAes128Cmac : KeyInfo := 0x0003
def keyTypeBit : KeyInfo := 0x0008
def keyIndexMask : KeyInfo := 0x0030
def installBit : KeyInfo := 0x0040
def ackBit : KeyInfo := 0x0080
def micBit : KeyInfo := 0x0100
def secureBit : KeyInfo := 0x0200
def errorBit : KeyInfo := 0x0400
def requestBit : KeyInfo := 0x0800
def encrKeyDataBit : KeyInfo := 0x1000
def smkMessageBit : KeyInfo := 0x2000

def ver (k : KeyInfo) : KeyInfo := k &&& typeMask
def keyType (k : KeyInfo) : Bool := k.getLsbD 3
def keyIndex (k : KeyInfo) : BitVec 2 := k.extractLsb' 4 2
def install (k : KeyInfo) : Bool := k.getLsbD 6
def ack (k : KeyInfo) : Bool := k.getLsbD 7
def mic (k : KeyInfo) : Bool := k.getLsbD 8
def secure (k : KeyInfo) : Bool := k.getLsbD 9
def error (k : KeyInfo) : Bool := k.getLsbD 10
def request (k : KeyInfo) : Bool := k.getLsbD 11
def encrKeyData (k : KeyInfo) : Bool := k.getLsbD 12
def smkMessage (k : KeyInfo) : Bool := k.getLsbD 13

-- A flag that is set only under a condition, as `cond ? BIT : 0` in the source.
def flag (b : Bool) (bit : KeyInfo) : KeyInfo := if b then bit else 0

end KeyInfo

-- `struct wpa_ptk`; the two Michael keys are the two halves of TK2.
structure Ptk where
  kck : BitVec 128
  kek : BitVec 128
  tk1 : BitVec 128
  txMicKey : BitVec 64
  rxMicKey : BitVec 64
  deriving DecidableEq, Repr

namespace Ptk

-- the memory cleared by `os_memset`
def zero : Ptk := ⟨0, 0, 0, 0, 0⟩

-- The octets of the temporal key as `set_key` reads them, starting at `tk1`.
def tkOctets (ptk : Ptk) (len : ℕ) : Octets :=
  (putBE 16 ptk.tk1 ++ putBE 8 ptk.txMicKey ++ putBE 8 ptk.rxMicKey).take len

def keys (ptk : Ptk) : BitVec 128 × BitVec 128 × BitVec 128 := (ptk.kck, ptk.kek, ptk.tk1)

def swapMicKeys (ptk : Ptk) : Ptk :=
  { ptk with txMicKey := ptk.rxMicKey, rxMicKey := ptk.txMicKey }

-- The PTK written over `old` by the first octets of a key derivation: 64 octets replace the
-- whole structure, 48 octets leave the Michael keys as they were.
def write (old : Ptk) (out : Octets) (ptkLen : ℕ) : Ptk where
  kck := getBE 128 (out.take 16)
  kek := getBE 128 ((out.drop 16).take 16)
  tk1 := getBE 128 ((out.drop 32).take 16)
  txMicKey := if ptkLen = 64 then getBE 64 ((out.drop 48).take 8) else old.txMicKey
  rxMicKey := if ptkLen = 64 then getBE 64 ((out.drop 56).take 8) else old.rxMicKey

end Ptk

structure PmksaEntry where
  pmk : Octets
  pmkid : Octets
  deriving DecidableEq, Repr

-- The inputs of one PTK derivation, for the history of a run. `data` is the sorted block of
-- addresses and nonces.
structure PtkInput where
  pmk : Octets
  data : Octets
  ptkLen : ℕ
  sha256 : Bool
  deriving DecidableEq, Repr

-- The cryptographic primitives the two state machines call. AES key wrap may fail; the
-- others return a value for every input.
structure Crypto where
  hmacMd5 : BitVec 128 → Octets → BitVec 128
  hmacSha1 : BitVec 128 → Octets → BitVec 160
  omac1Aes128 : BitVec 128 → Octets → BitVec 128
  sha1Prf : Octets → String → Octets → ℕ → Octets
  sha256Prf : Octets → String → Octets → ℕ → Octets
  rc4Skip : Octets → ℕ → Octets → Octets
  aesWrap : BitVec 128 → Octets → Option Octets
  aesUnwrap : BitVec 128 → Octets → Option Octets
  rsnPmkid : Octets → Addr → Addr → Bool → BitVec 128
  rsnSmkid : Octets → Nonce → Addr → Nonce → Addr → Bool → BitVec 128

namespace Crypto

-- `wpa_eapol_key_mic`; `none` for a descriptor version without a MIC algorithm
def wpaEapolKeyMic (c : Crypto) (kck : BitVec 128) (ver : KeyInfo) (buf : Octets) :
    Option (BitVec 128) :=
  if ver = KeyInfo.typeHmacMd5Rc4 then some (c.hmacMd5 kck buf)
  else if ver = KeyInfo.typeHmacSha1Aes then some ((c.hmacSha1 kck buf).extractLsb' 32 128)
  else if ver = KeyInfo.typeAes128Cmac then some (c.omac1Aes128 kck buf)
  else none

-- The data block of `wpa_pmk_to_ptk`: both pairs are sorted, so the two ends of a handshake
-- build the same block although each of them passes its own values first.
def ptkData (addr1 addr2 : Addr) (nonce1 nonce2 : Nonce) : Octets :=
  (if addr1 < addr2 then putBE 6 addr1 ++ putBE 6 addr2 else putBE 6 addr2 ++ putBE 6 addr1) ++
  (if nonce1 < nonce2 then putBE 32 nonce1 ++ putBE 32 nonce2
    else putBE 32 nonce2 ++ putBE 32 nonce1)

def wpaPmkToPtk (c : Crypto) (pmk : Octets) (label : String) (addr1 addr2 : Addr)
    (nonce1 nonce2 : Nonce) (ptkLen : ℕ) (useSha256 : Bool) : Octets :=
  let data := ptkData addr1 addr2 nonce1 nonce2
  if useSha256 then c.sha256Prf pmk label data ptkLen else c.sha1Prf pmk label data ptkLen

def ptkOctets (c : Crypto) (i : PtkInput) : Octets :=
  if i.sha256 then c.sha256Prf i.pmk "Pairwise key expansion" i.data i.ptkLen
  else c.sha1Prf i.pmk "Pairwise key expansion" i.data i.ptkLen

-- KCK, KEK and TK1 of a derivation
def ptkKeys (c : Crypto) (i : PtkInput) : BitVec 128 × BitVec 128 × BitVec 128 :=
  let out := c.ptkOctets i
  (getBE 128 (out.take 16), getBE 128 ((out.drop 16).take 16), getBE 128 ((out.drop 32).take 16))

-- Primitives that hide nothing and run fast: concrete runs are evaluated on them. Key wrap puts
-- eight octets in front, as AES key wrap does, and RC4 is the empty key stream.
def transparent : Crypto where
  hmacMd5 key data := key + BitVec.ofNat 128 (ofBE data)
  hmacSha1 key data := ((key + BitVec.ofNat 128 (ofBE data)).setWidth 160) <<< 32
  omac1Aes128 key data := key + BitVec.ofNat 128 (ofBE data)
  sha1Prf key _ data len := toBE len (ofBE key + ofBE data)
  sha256Prf key _ data len := toBE len (ofBE key + ofBE data)
  rc4Skip _ _ data := data
  aesWrap _ plain := some (List.replicate 8 0xa6 ++ plain)
  aesUnwrap _ wrapped := if wrapped.length < 8 then none else some (wrapped.drop 8)
  rsnPmkid pmk _ _ _ := getBE 128 (pmk.take 16)
  rsnSmkid smk _ _ _ _ _ := getBE 128 (smk.take 16)

end Crypto

abbrev CString := { s : Octets // (0 : UInt8) ∉ s }

-- `tolower`
def toLower (c : UInt8) : UInt8 := if 0x41 ≤ c && c ≤ 0x5a then c + 0x20 else c

def osStrcasecmp : Octets → Octets → ℤ
  | [], [] => 0
  | [], b :: _ => -((toLower b).toNat : ℤ)
  | a :: _, [] => ((toLower a).toNat : ℤ)
  | a :: s, b :: t =>
    if toLower a = toLower b then osStrcasecmp s t else ((toLower a).toNat : ℤ) - (toLower b).toNat

theorem toLower_eq_zero {c : UInt8} (h : (toLower c).toNat = 0) : c = 0 := by
  unfold toLower at h
  split at h
  · rename_i hc
    simp only [Bool.and_eq_true, decide_eq_true_eq, UInt8.le_iff_toNat_le] at hc
    rw [UInt8.toNat_add] at h
    simp only [UInt8.reduceToNat] at hc h
    omega
  · exact UInt8.toNat_inj.mp h

theorem osStrcasecmp_eq_zero {a b : Octets} (ha : (0 : UInt8) ∉ a) (hb : (0 : UInt8) ∉ b) :
    osStrcasecmp a b = 0 ↔ a.map toLower = b.map toLower := by
  induction a generalizing b with
  | nil =>
    cases b with
    | nil => simp [osStrcasecmp]
    | cons y t =>
      simp only [osStrcasecmp, List.map_nil, List.map_cons, List.nil_eq, reduceCtorEq, iff_false]
      intro h
      have hy := toLower_eq_zero (c := y) (by omega)
      simp [hy] at hb
  | cons x s ih =>
    simp only [List.mem_cons, not_or] at ha
    cases b with
    | nil =>
      simp only [osStrcasecmp, List.map_nil, List.map_cons, reduceCtorEq, iff_false]
      intro h
      exact ha.1 (toLower_eq_zero (by omega)).symm
    | cons y t =>
      simp only [List.mem_cons, not_or] at hb
      simp only [osStrcasecmp, List.map_cons, List.cons.injEq]
      by_cases hxy : toLower x = toLower y
      · rw [if_pos hxy, ih ha.2 hb.2]
        simp [hxy]
      rw [if_neg hxy]
      simp only [hxy, false_and, iff_false]
      intro h
      exact hxy (UInt8.toNat_inj.mp (by omega))

end WpaSupplicant
