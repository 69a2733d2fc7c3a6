import WpaSupplicant.Common
import WpaSupplicant.Lib.Repeat

namespace WpaSupplicant.Interworking

open Lib.Octets Lib.Repeat

-- `NAI_REALM_EAP_AUTH_*`
def authNonEapInnerAuth : UInt8 := 2
def authInnerAuthEapMethod : UInt8 := 3
def authCredType : UInt8 := 5
def authTunneledCredType : UInt8 := 6

-- `struct nai_realm_eap`
structure NaiRealmEap where
  method : UInt8 := 0
  innerMethod : UInt8 := 0
  innerNonEap : UInt8 := 0
  credType : UInt8 := 0
  tunneledCredType : UInt8 := 0
  deriving DecidableEq, Repr

-- `struct nai_realm`
structure NaiRealm where
  encoding : UInt8
  realm : Octets
  eap : List NaiRealmEap
  deriving DecidableEq, Repr

-- An authentication parameter of `nai_realm_parse_eap`: its identifier and its value
def authParam : Parser UInt8 (UInt8 × Octets)
  | id :: len :: rest => if rest.length < len.toNat then none else some ((id, rest.take len.toNat), rest.drop len.toNat)
  | _ => none

-- What an authentication parameter sets; an empty one, or one that is not supported, sets nothing.
def NaiRealmEap.set (e : NaiRealmEap) : UInt8 × Octets → NaiRealmEap
  | (_, []) => e
  | (id, v :: _) =>
    if id = authNonEapInnerAuth then { e with innerNonEap := v }
    else if id = authInnerAuthEapMethod then { e with innerMethod := v }
    else if id = authCredType then { e with credType := v }
    else if id = authTunneledCredType then { e with tunneledCredType := v }
    else e

-- `nai_realm_parse_eap` on the octets up to the end of the realm. The authentication parameters are looked for
-- up to there.
def naiRealmParseEap : Parser UInt8 NaiRealmEap
  | elen :: method :: authCount :: rest =>
    if rest.length + 2 < elen.toNat ∨ elen.toNat < 2 then none
    else
      (times authParam authCount.toNat rest).map fun params =>
        (params.1.foldl NaiRealmEap.set { method := method }, rest.drop (elen.toNat - 2))
  | _ => none

-- `nai_realm_parse_realm` on the body of a NAI Realm Data field
def naiRealmParseBody : Octets → Option NaiRealm
  | encoding :: realmLen :: rest =>
    if rest.length < realmLen.toNat then none
    else
      match rest.drop realmLen.toNat with
      | eapCount :: eaps =>
        if eaps.length < eapCount.toNat * 3 then none
        else
          (times naiRealmParseEap eapCount.toNat eaps).map fun e =>
            { encoding := encoding, realm := rest.take realmLen.toNat, eap := e.1 }
      | [] => none
  | _ => none

def naiRealmParseRealm : Parser UInt8 NaiRealm
  | l0 :: l1 :: rest =>
    let len := l0.toNat + 256 * l1.toNat
    if rest.length < 2 then none
    else if rest.length < len ∨ len < 3 then none
    else (naiRealmParseBody (rest.take len)).map fun r => (r, rest.drop len)
  | _ => none

def naiRealmParse : Octets → Option (List NaiRealm)
  | c0 :: c1 :: rest =>
    let num := c0.toNat + 256 * c1.toNat
    if rest.length < num * 5 then none else (times naiRealmParseRealm num rest).map fun realms => realms.1
  | _ => none

end WpaSupplicant.Interworking
