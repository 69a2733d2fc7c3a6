import WpaSupplicant.AuthIe

namespace WpaSupplicant

open Lib.Octets KeyData

-- `struct wpa_ie_data` as `wpa_parse_wpa_ie_rsn` fills it; a bit field is the list of its
-- members, and an unknown suite adds none.
structure WpaIeData where
  pairwiseCipher : List Cipher := [.ccmp]
  groupCipher : Option Cipher := some .ccmp
  keyMgmt : List KeyMgmt := [.ieee8021x]
  capabilities : ℕ := 0
  pmkids : Option Octets := none
  mgmtGroupCipher : Option Cipher := some .aes128Cmac
  deriving DecidableEq, Repr

namespace RsnIe

-- `WPA_GET_LE16`
def getLE16 (l : Octets) : ℕ := (l.getD 0 0).toNat + 256 * (l.getD 1 0).toNat

def rsnSelectorToBitfield (s : Octets) : Option Cipher :=
  if s = AuthIe.rsnCipherSuiteNone then some .none
  else if s = AuthIe.rsnCipherSuiteWep40 then some .wep40
  else if s = AuthIe.rsnCipherSuiteTkip then some .tkip
  else if s = AuthIe.rsnCipherSuiteCcmp then some .ccmp
  else if s = AuthIe.rsnCipherSuiteWep104 then some .wep104
  else if s = AuthIe.rsnCipherSuiteAes128Cmac then some .aes128Cmac
  else none

def rsnKeyMgmtToBitfield (s : Octets) : Option KeyMgmt :=
  if s = AuthIe.rsnAuthKeyMgmtUnspec8021x then some .ieee8021x
  else if s = AuthIe.rsnAuthKeyMgmtPskOver8021x then some .psk
  else if s = AuthIe.rsnAuthKeyMgmt8021xSha256 then some .ieee8021xSha256
  else if s = AuthIe.rsnAuthKeyMgmtPskSha256 then some .pskSha256
  else none

-- The first `count` selectors of a buffer
def selectors (count : ℕ) (l : Octets) : List Octets :=
  (List.range count).map fun k => (l.drop (4 * k)).take 4

-- One counted list of suites; the error codes are those of the list, and the rest of the
-- buffer comes back with it.
def suites (botch short : ℤ) (l : Octets) : Except ℤ (Option (List Octets) × Octets) :=
  if 2 ≤ l.length then
    let count := getLE16 l
    let rest := l.drop 2
    if count = 0 ∨ rest.length < 4 * count then .error botch
    else .ok (some (selectors count rest), rest.drop (4 * count))
  else if l.length = 1 then .error short
  else .ok (none, l)

def group (data : WpaIeData) (l : Octets) : Except ℤ (WpaIeData × Octets) :=
  if 4 ≤ l.length then
    let cipher := rsnSelectorToBitfield (l.take 4)
    if cipher = some .aes128Cmac then .error (-1)
    else .ok ({ data with groupCipher := cipher }, l.drop 4)
  else if 0 < l.length then .error (-3)
  else .ok (data, l)

def pairwise (data : WpaIeData) (l : Octets) : Except ℤ (WpaIeData × Octets) := do
  let (list, rest) ← suites (-4) (-5) l
  match list with
  | none => .ok (data, rest)
  | some sels =>
    let ciphers := sels.filterMap rsnSelectorToBitfield
    if .aes128Cmac ∈ ciphers then .error (-1)
    else .ok ({ data with pairwiseCipher := ciphers }, rest)

def akm (data : WpaIeData) (l : Octets) : Except ℤ (WpaIeData × Octets) := do
  let (list, rest) ← suites (-6) (-7) l
  match list with
  | none => .ok (data, rest)
  | some sels => .ok ({ data with keyMgmt := sels.filterMap rsnKeyMgmtToBitfield }, rest)

def trailer (data : WpaIeData) (l : Octets) : Except ℤ WpaIeData :=
  let (data, l) :=
    if 2 ≤ l.length then ({ data with capabilities := getLE16 l }, l.drop 2) else (data, l)
  let pmkids := getLE16 l
  if 2 ≤ l.length ∧ (l.drop 2).length < 16 * pmkids then .error (-9)
  else
    let (data, l) :=
      if 2 ≤ l.length then
        ({ data with pmkids := some ((l.drop 2).take (16 * pmkids)) }, l.drop (2 + 16 * pmkids))
      else (data, l)
    if 4 ≤ l.length then
      let cipher := rsnSelectorToBitfield (l.take 4)
      if cipher = some .aes128Cmac then .ok { data with mgmtGroupCipher := cipher }
      else .error (-10)
    else .ok data

-- `wpa_parse_wpa_ie_rsn`; an error is the return value of the source.
def wpaParseWpaIeRsn (ie : Octets) : Except ℤ WpaIeData :=
  if ie.length < 4 then .error (-1)
  else if ie.getD 0 0 ≠ eidRsn ∨ (ie.getD 1 0).toNat ≠ ie.length - 2 ∨ getLE16 (ie.drop 2) ≠ 1 then
    .error (-2)
  else do
    let (data, l) ← group {} (ie.drop 4)
    let (data, l) ← pairwise data l
    let (data, l) ← akm data l
    trailer data l

end RsnIe

end WpaSupplicant
