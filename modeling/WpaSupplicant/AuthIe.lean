import WpaSupplicant.KeyData

namespace WpaSupplicant

open Lib.Octets KeyData

-- `struct wpa_auth_config`. `protos`, `wpaKeyMgmt` and the two pairwise fields are bit fields
-- of the source.
structure WpaAuthConfig where
  protos : List Proto
  wpaKeyMgmt : List KeyMgmt
  wpaPairwise : List Cipher
  wpaGroup : Cipher
  rsnPairwise : List Cipher
  wpaStrictRekey : Bool := false
  wpaPtkRekey : Bool := false
  rsnPreauth : Bool := false
  eapolVersion : UInt8 := 2
  peerkey : Bool := false
  wmmEnabled : Bool := false
  txStatus : Bool := false
  ieee80211w : Mfp := .noMgmtFrameProtection
  disableGtk : Bool := false
  deriving DecidableEq, Repr

namespace AuthIe

def wpaCipherSuiteNone : Octets := rsnSelector 0x00 0x50 0xf2 0
def wpaCipherSuiteWep40 : Octets := rsnSelector 0x00 0x50 0xf2 1
def wpaCipherSuiteTkip : Octets := rsnSelector 0x00 0x50 0xf2 2
def wpaCipherSuiteCcmp : Octets := rsnSelector 0x00 0x50 0xf2 4
def wpaCipherSuiteWep104 : Octets := rsnSelector 0x00 0x50 0xf2 5
def wpaAuthKeyMgmtUnspec8021x : Octets := rsnSelector 0x00 0x50 0xf2 1
def wpaAuthKeyMgmtPskOver8021x : Octets := rsnSelector 0x00 0x50 0xf2 2

def rsnCipherSuiteNone : Octets := rsnSelector 0x00 0x0f 0xac 0
def rsnCipherSuiteWep40 : Octets := rsnSelector 0x00 0x0f 0xac 1
def rsnCipherSuiteTkip : Octets := rsnSelector 0x00 0x0f 0xac 2
def rsnCipherSuiteCcmp : Octets := rsnSelector 0x00 0x0f 0xac 4
def rsnCipherSuiteWep104 : Octets := rsnSelector 0x00 0x0f 0xac 5
def rsnCipherSuiteAes128Cmac : Octets := rsnSelector 0x00 0x0f 0xac 6
def rsnAuthKeyMgmtUnspec8021x : Octets := rsnSelector 0x00 0x0f 0xac 1
def rsnAuthKeyMgmtPskOver8021x : Octets := rsnSelector 0x00 0x0f 0xac 2
def rsnAuthKeyMgmt8021xSha256 : Octets := rsnSelector 0x00 0x0f 0xac 5
def rsnAuthKeyMgmtPskSha256 : Octets := rsnSelector 0x00 0x0f 0xac 6

-- `WPA_CAPABILITY_*` bits of the RSN Capabilities field
def capabPreauth : ℕ := 0x0001
def capabNumReplayCounters16 : ℕ := 0x000c
def capabMfpr : ℕ := 0x0040
def capabMfpc : ℕ := 0x0080
def capabPeerkeyEnabled : ℕ := 0x0200

-- A suite list: its count and the selectors; `none` if it would be empty
def suiteList (suites : List Octets) : Option Octets :=
  if suites.length = 0 then none else some (toLE 2 suites.length ++ suites.flatten)

def selected {α : Type} [DecidableEq α] (have_ : List α) (table : List (α × Octets)) :
    List Octets :=
  (table.filter fun p => p.1 ∈ have_).map Prod.snd

def wpaGroupSuite : Cipher → Option Octets
  | .ccmp => some wpaCipherSuiteCcmp
  | .tkip => some wpaCipherSuiteTkip
  | .wep104 => some wpaCipherSuiteWep104
  | .wep40 => some wpaCipherSuiteWep40
  | _ => none

def rsnGroupSuite : Cipher → Option Octets
  | .ccmp => some rsnCipherSuiteCcmp
  | .tkip => some rsnCipherSuiteTkip
  | .wep104 => some rsnCipherSuiteWep104
  | .wep40 => some rsnCipherSuiteWep40
  | _ => none

def wpaWriteWpaIe (conf : WpaAuthConfig) : Option Octets := do
  let group ← wpaGroupSuite conf.wpaGroup
  let pairwise ← suiteList (selected conf.wpaPairwise
    [(.ccmp, wpaCipherSuiteCcmp), (.tkip, wpaCipherSuiteTkip), (.none, wpaCipherSuiteNone)])
  let akm ← suiteList (selected conf.wpaKeyMgmt
    [(.ieee8021x, wpaAuthKeyMgmtUnspec8021x), (.psk, wpaAuthKeyMgmtPskOver8021x)])
  some (elem eidVendorSpecific (wpaOuiType ++ toLE 2 1 ++ group ++ pairwise ++ akm))

def rsnCapab (conf : WpaAuthConfig) : ℕ :=
  (if conf.rsnPreauth then capabPreauth else 0) +
  (if conf.peerkey then capabPeerkeyEnabled else 0) +
  (if conf.wmmEnabled then capabNumReplayCounters16 else 0) +
  (if conf.ieee80211w ≠ .noMgmtFrameProtection then capabMfpc else 0) +
  (if conf.ieee80211w = .required then capabMfpr else 0)

-- `wpa_write_rsn_ie` into `len` octets of space
def wpaWriteRsnIe (conf : WpaAuthConfig) (len : ℕ) (pmkid : Option Octets) : Option Octets := do
  let group ← rsnGroupSuite conf.wpaGroup
  let pairwise ← suiteList (selected conf.rsnPairwise
    [(.ccmp, rsnCipherSuiteCcmp), (.tkip, rsnCipherSuiteTkip), (.none, rsnCipherSuiteNone)])
  let akm ← suiteList (selected conf.wpaKeyMgmt
    [(.ieee8021x, rsnAuthKeyMgmtUnspec8021x), (.psk, rsnAuthKeyMgmtPskOver8021x),
     (.ieee8021xSha256, rsnAuthKeyMgmt8021xSha256), (.pskSha256, rsnAuthKeyMgmtPskSha256)])
  let body := toLE 2 1 ++ group ++ pairwise ++ akm ++ toLE 2 (rsnCapab conf)
  let body ← match pmkid with
    | none => some body
    | some id =>
      if len < 2 + body.length + 2 + 16 then none else some (body ++ toLE 2 1 ++ id.take 16)
  let body ←
    if conf.ieee80211w = .noMgmtFrameProtection then some body
    else if len < 2 + body.length + 2 + 4 then none
    else some (body ++ (if pmkid.isNone then toLE 2 0 else []) ++ rsnCipherSuiteAes128Cmac)
  some (elem eidRsn body)

-- `wpa_auth_gen_wpa_ie`: the IE list the Authenticator advertises and repeats in message 3/4
def wpaAuthGenWpaIe (conf : WpaAuthConfig) : Option Octets := do
  let rsn ← if .rsn ∈ conf.protos then wpaWriteRsnIe conf 128 none else some []
  let wpa ← if .wpa ∈ conf.protos then wpaWriteWpaIe conf else some []
  some (rsn ++ wpa)

def msg3WpaIe (conf : WpaAuthConfig) (ver : Option Proto) (wpaIe : Octets) : Octets :=
  let first := (wpaIe.getD 1 0).toNat + 2
  if ver = some .wpa ∧ .rsn ∈ conf.protos ∧ first < wpaIe.length ∧ wpaIe.getD 0 0 = eidRsn then
    let rest := wpaIe.drop first
    rest.take ((rest.getD 1 0).toNat + 2)
  else wpaIe

end AuthIe

end WpaSupplicant
