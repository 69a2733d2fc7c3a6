import WpaSupplicant.Common

namespace WpaSupplicant.KeyData

open Lib.Octets

-- `WLAN_EID_*`
def eidSuppRates : UInt8 := 1
def eidRsn : UInt8 := 48
def eidExtSuppRates : UInt8 := 50
def eidMobilityDomain : UInt8 := 54
def eidFastBssTransition : UInt8 := 55
def eidTimeoutInterval : UInt8 := 56
def eidLinkId : UInt8 := 101
def eidExtCapab : UInt8 := 127
def eidVendorSpecific : UInt8 := 221

-- `WLAN_TIMEOUT_*`
def timeoutReassocDeadline : UInt8 := 1
def timeoutKeyLifetime : UInt8 := 2

-- `RSN_SELECTOR_PUT`: an OUI and a type octet
def rsnSelector (a b c d : UInt8) : Octets := [a, b, c, d]

def wpaOuiType : Octets := rsnSelector 0x00 0x50 0xf2 1
def rsnKeyDataGroupkey : Octets := rsnSelector 0x00 0x0f 0xac 1
def rsnKeyDataMacAddr : Octets := rsnSelector 0x00 0x0f 0xac 3
def rsnKeyDataPmkid : Octets := rsnSelector 0x00 0x0f 0xac 4
def rsnKeyDataSmk : Octets := rsnSelector 0x00 0x0f 0xac 5
def rsnKeyDataNonce : Octets := rsnSelector 0x00 0x0f 0xac 6
def rsnKeyDataLifetime : Octets := rsnSelector 0x00 0x0f 0xac 7
def rsnKeyDataError : Octets := rsnSelector 0x00 0x0f 0xac 8
def rsnKeyDataIgtk : Octets := rsnSelector 0x00 0x0f 0xac 9

-- `struct wpa_eapol_ie_parse`: a pointer with its length is the slice it delimits. An IE
-- field holds the whole element, a KDE field what follows the selector.
structure EapolIeParse where
  wpaIe : Option Octets := none
  rsnIe : Option Octets := none
  pmkid : Option Octets := none
  gtk : Option Octets := none
  macAddr : Option Octets := none
  smk : Option Octets := none
  nonce : Option Octets := none
  lifetime : Option Octets := none
  error : Option Octets := none
  igtk : Option Octets := none
  mdie : Option Octets := none
  ftie : Option Octets := none
  reassocDeadline : Option Octets := none
  keyLifetime : Option Octets := none
  lnkid : Option Octets := none
  extCapab : Option Octets := none
  suppRates : Option Octets := none
  extSuppRates : Option Octets := none
  deriving DecidableEq, Repr

def elem (id : UInt8) (body : Octets) : Octets := id :: UInt8.ofNat body.length :: body

-- `wpa_parse_generic`, the same text in the Supplicant and the Authenticator; `body` is what
-- the length octet covers, and `none` is the end mark. The PMKID test on the end of the buffer
-- is implied by the length test, since the caller has checked that the whole body is there.
def wpaParseGeneric (body : Octets) (ie : EapolIeParse) : Option EapolIeParse :=
  let sel := body.take 4
  let data := body.drop 4
  if body.length = 0 then none
  else if 6 ≤ body.length ∧ sel = wpaOuiType ∧ body.getD 4 0 = 1 ∧ body.getD 5 0 = 0 then
    some { ie with wpaIe := some (elem eidVendorSpecific body) }
  else if 20 ≤ body.length ∧ sel = rsnKeyDataPmkid then
    some { ie with pmkid := some (data.take 16) }
  else if 6 < body.length ∧ sel = rsnKeyDataGroupkey then some { ie with gtk := some data }
  else if 6 < body.length ∧ sel = rsnKeyDataMacAddr then some { ie with macAddr := some data }
  else if 6 < body.length ∧ sel = rsnKeyDataSmk then some { ie with smk := some data }
  else if 6 < body.length ∧ sel = rsnKeyDataNonce then some { ie with nonce := some data }
  else if 6 < body.length ∧ sel = rsnKeyDataLifetime then some { ie with lifetime := some data }
  else if 6 < body.length ∧ sel = rsnKeyDataError then some { ie with error := some data }
  else if 6 < body.length ∧ sel = rsnKeyDataIgtk then some { ie with igtk := some data }
  else some ie

-- The loop of the two Key Data parsers over the elements of the buffer; they differ only in
-- what they do with an element that is not vendor specific. The flag is the return value 0.
-- A last octet without a length octet ends the loop, and so does the padding `dd 00`: the
-- test of the source for a lone `dd` in the last place can not hold inside the loop.
def parseElems (other : UInt8 → Octets → EapolIeParse → EapolIeParse) :
    ℕ → Octets → EapolIeParse → Bool × EapolIeParse
  | 0, _, ie => (true, ie)
  | fuel + 1, id :: len :: rest, ie =>
    if id = 0xdd ∧ len = 0 then (true, ie)
    else if rest.length < len.toNat then (false, ie)
    else if id = eidVendorSpecific then
      match wpaParseGeneric (rest.take len.toNat) ie with
      | none => (true, ie)
      | some ie' => parseElems other fuel (rest.drop len.toNat) ie'
    else
      parseElems other fuel (rest.drop len.toNat) (other id (rest.take len.toNat) ie)
  | _ + 1, _, ie => (true, ie)

-- The elements `wpa_supplicant_parse_ies` keeps
def supplicantElem (id : UInt8) (body : Octets) (ie : EapolIeParse) : EapolIeParse :=
  let whole := elem id body
  if id = eidRsn then { ie with rsnIe := some whole }
  else if id = eidMobilityDomain then { ie with mdie := some whole }
  else if id = eidFastBssTransition then { ie with ftie := some whole }
  else if id = eidTimeoutInterval ∧ 5 ≤ body.length then
    if body.getD 0 0 = timeoutReassocDeadline then { ie with reassocDeadline := some whole }
    else if body.getD 0 0 = timeoutKeyLifetime then { ie with keyLifetime := some whole }
    else ie
  else if id = eidLinkId then
    if 18 ≤ body.length then { ie with lnkid := some whole } else ie
  else if id = eidExtCapab then { ie with extCapab := some whole }
  else if id = eidSuppRates then { ie with suppRates := some whole }
  else if id = eidExtSuppRates then { ie with extSuppRates := some whole }
  else ie

-- The elements `wpa_parse_kde_ies` keeps
def authElem (id : UInt8) (body : Octets) (ie : EapolIeParse) : EapolIeParse :=
  if id = eidRsn then { ie with rsnIe := some (elem id body) } else ie

def wpaSupplicantParseIes (buf : Octets) : Bool × EapolIeParse :=
  parseElems supplicantElem buf.length buf {}

def wpaParseKdeIes (buf : Octets) : Bool × EapolIeParse :=
  parseElems authElem buf.length buf {}

-- `wpa_add_kde`, with the optional second piece of data
def wpaAddKde (kde data data2 : Octets) : Octets :=
  [eidVendorSpecific, UInt8.ofNat (4 + data.length + data2.length)] ++ kde ++ data ++ data2

def gtkKde (keyidx : ℕ) (gtk : Octets) : Octets :=
  wpaAddKde rsnKeyDataGroupkey [UInt8.ofNat (keyidx % 4), 0] gtk

-- `struct wpa_igtk_kde`
def igtkKde (keyid : ℕ) (pn igtk : Octets) : Octets :=
  wpaAddKde rsnKeyDataIgtk ([UInt8.ofNat keyid, 0] ++ pn ++ igtk) []

-- The padding `__wpa_send_eapol` puts behind key data that AES key wrap encrypts
def padLen (len : ℕ) : ℕ := if len % 8 = 0 then 0 else 8 - len % 8

def padKeyData (kde : Octets) : Octets :=
  kde ++ (if padLen kde.length = 0 then [] else 0xdd :: List.replicate (padLen kde.length - 1) 0)

end WpaSupplicant.KeyData
