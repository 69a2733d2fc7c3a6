import WpaSupplicant.Bss
import WpaSupplicant.Interworking.NaiRealm
import WpaSupplicant.Interworking.Plmn
import WpaSupplicant.Common

namespace WpaSupplicant.Interworking

open Bss

-- `EAP_TYPE_*`
def eapTypeGtc : UInt8 := 6
def eapTypeTtls : UInt8 := 21
def eapTypePeap : UInt8 := 25
def eapTypeMschapv2 : UInt8 := 26
def eapTypeExpanded : UInt8 := 254

-- `NAI_REALM_INNER_NON_EAP_*`
def innerNonEapPap : UInt8 := 1
def innerNonEapChap : UInt8 := 2
def innerNonEapMschap : UInt8 := 3
def innerNonEapMschapv2 : UInt8 := 4

def eapMethodTable : List (UInt8 × String) :=
  [(4, "MD5"), (13, "TLS"), (26, "MSCHAPV2"), (25, "PEAP"), (21, "TTLS"), (6, "GTC"), (5, "OTP"), (18, "SIM"),
    (17, "LEAP"), (47, "PSK"), (23, "AKA"), (50, "AKA'"), (43, "FAST"), (46, "PAX"), (48, "SAKE"), (51, "GPSK"),
    (49, "IKEV2"), (38, "TNC"), (52, "PWD")]

-- The `home_*` variables of `struct wpa_config`, and which EAP methods the build has
structure HomeConf where
  registered : UInt8 → Bool
  homeRealm : Option CString := none
  homeUsername : Option CString := none
  homePassword : Option CString := none
  homeCaCert : Option CString := none
  homeImsi : Option CString := none
  homeMilenage : Option CString := none

variable (conf : HomeConf)

-- `eap_get_name` for the IETF
def eapGetName (type : UInt8) : Option String :=
  if type = eapTypeExpanded then some "expanded"
  else (eapMethodTable.find? fun m => m.1 = type && conf.registered m.1).map Prod.snd

def eapPeerGetType (name : String) : UInt8 :=
  ((eapMethodTable.find? fun m => m.2 = name && conf.registered m.1).map Prod.fst).getD 0

def isGiven (s : Option CString) : Bool := s.any fun s => s.1 ≠ []

-- The loop of `nai_realm_match` over the names that semicolons separate
def realmLoop (home : Octets) : ℕ → Octets → Bool
  | 0, _ => false
  | fuel + 1, pos =>
    if pos = [] then false
    else
      match pos.findIdx? fun c => c = 0x3b with
      | none => osStrcasecmp pos home = 0
      | some sep => osStrcasecmp (pos.take sep) home = 0 || realmLoop home fuel (pos.drop (sep + 1))

-- `nai_realm_match`. The realm is a string up to its first NUL.
def naiRealmMatch (realm : NaiRealm) : Bool :=
  match conf.homeRealm with
  | none => false
  | some home =>
    let name := realm.realm.takeWhile fun c => c ≠ 0
    if 0x3b ∉ name then osStrcasecmp name home.1 = 0 else realmLoop home.1 name.length name

def naiRealmCredUsername (eap : NaiRealmEap) : Bool :=
  if eapGetName conf eap.method = none then false
  else if eap.method ≠ eapTypeTtls ∧ eap.method ≠ eapTypePeap then false
  else if eap.method = eapTypePeap ∧ eapGetName conf eap.innerMethod = none then false
  else if eap.method = eapTypeTtls ∧ eap.innerMethod = 0 ∧ eap.innerNonEap = 0 then false
  else if eap.method = eapTypeTtls ∧ eap.innerMethod ≠ 0 ∧ eapGetName conf eap.innerMethod = none then false
  else if eap.method = eapTypeTtls ∧ eap.innerNonEap ≠ 0 ∧
      eap.innerNonEap ∉ [innerNonEapPap, innerNonEapChap, innerNonEapMschap, innerNonEapMschapv2] then false
  else if eap.innerMethod ≠ 0 ∧ eap.innerMethod ≠ eapTypeGtc ∧ eap.innerMethod ≠ eapTypeMschapv2 then false
  else true

def naiRealmFindEap (realm : NaiRealm) : Option NaiRealmEap :=
  if isGiven conf.homeUsername && isGiven conf.homePassword then realm.eap.find? (naiRealmCredUsername conf) else none

def interworkingCredentialsAvailable3gpp (bss : Entry) : Bool :=
  match bss.anqp.cellular3gpp, conf.homeImsi with
  | some anqp, some imsi =>
    if isGiven (some imsi) && isGiven conf.homeMilenage then plmnIdMatch (some anqp) imsi.1 else false
  | _, _ => false

def interworkingCredentialsAvailableRealm (bss : Entry) : Bool :=
  match bss.anqp.naiRealm, conf.homeRealm with
  | some anqp, some _ =>
    match naiRealmParse anqp with
    | none => false
    | some realms => realms.any fun r => naiRealmMatch conf r && (naiRealmFindEap conf r).isSome
  | _, _ => false

def interworkingCredentialsAvailable (bss : Entry) : Bool :=
  interworkingCredentialsAvailableRealm conf bss || interworkingCredentialsAvailable3gpp conf bss

-- What `interworking_connect` sets in the network that it adds
structure Network where
  temporary : Bool := true
  ssid : Octets
  eapMethods : List UInt8
  identity : Option Octets := none
  password : Option Octets := none
  phase2 : Option String := none
  caCert : Option Octets := none
  deriving DecidableEq, Repr

-- What `interworking_connect` comes to: nothing, a call of `interworking_connect_3gpp`, or a network
inductive Connect where
  | failed
  | threeGpp
  | network (n : Network)
  deriving DecidableEq, Repr

def nonEapPhase2 (innerNonEap : UInt8) : Option String :=
  if innerNonEap = innerNonEapPap then some "auth=PAP"
  else if innerNonEap = innerNonEapChap then some "auth=CHAP"
  else if innerNonEap = innerNonEapMschap then some "auth=CHAP"
  else if innerNonEap = innerNonEapMschapv2 then some "auth=MSCHAPV2"
  else none

-- The switch of `interworking_connect`. An inner method that is set has a name.
def phase2Setting (eap : NaiRealmEap) : Option String :=
  if eap.method = eapTypeTtls then
    if eap.innerMethod ≠ 0 then some ("autheap=" ++ (eapGetName conf eap.innerMethod).getD "")
    else nonEapPhase2 eap.innerNonEap
  else if eap.method = eapTypePeap then some ("auth=" ++ (eapGetName conf eap.innerMethod).getD "")
  else none

def givenOnly (s : Option CString) : Option Octets := if isGiven s then s.map Subtype.val else none

-- `interworking_connect`; settings of a network fail only where the method is not known.
def interworkingConnect (bss : Entry) : Connect :=
  match getIe bss.ies eidSsid with
  | none => .failed
  | some ssid =>
    if ssid = [] then .failed
    else
      let realms := (bss.anqp.naiRealm.bind naiRealmParse).getD []
      match realms.findSome? fun r => if naiRealmMatch conf r then naiRealmFindEap conf r else none with
      | none => .threeGpp
      | some eap =>
        match eapGetName conf eap.method with
        | none => .failed
        | some name =>
          if eapPeerGetType conf name = 0 then .failed
          else
            .network
              { ssid := ssid
                eapMethods := [eapPeerGetType conf name]
                identity := givenOnly conf.homeUsername
                password := givenOnly conf.homePassword
                phase2 := phase2Setting conf eap
                caCert := givenOnly conf.homeCaCert }

end WpaSupplicant.Interworking
