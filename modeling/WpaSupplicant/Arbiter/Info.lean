import WpaSupplicant.Interworking.Credentials
import WpaSupplicant.Lib.Checked

namespace WpaSupplicant.Arbiter

open Bss Interworking Lib.Checked

-- The texts that `arbiter_get_anqp_info` collects. Nothing comes of a function that reads or writes outside of the
-- object it works on, or uses what is not set.

def ascii (s : String) : Octets := s.toList.map fun c => UInt8.ofNat c.toNat

def infoSize : ℕ := 256

-- `os_snprintf` of a text to a position of a buffer, with what is left of the buffer
def osSnprintf (buf : Octets) (pos size : ℕ) (text : Octets) : Option Octets :=
  if size = 0 then some buf else store buf pos (text.take (size - 1) ++ [0])

section

variable {buf buf' rest text : Octets} {pos size : ℕ}

theorem osSnprintf_append (done : Octets) (h : text.length < rest.length) (hsize : text.length < size) :
    osSnprintf (done ++ rest) done.length size text =
      some (done ++ text ++ 0 :: rest.drop (text.length + 1)) := by
  have htake : text.take (size - 1) = text := List.take_of_length_le (by omega)
  rw [osSnprintf, if_neg (by omega), htake, store_append done (by simpa [Nat.succ_le_iff] using h)]
  simp

theorem length_osSnprintf (h : osSnprintf buf pos size text = some buf') :
    buf'.length = buf.length := by
  unfold osSnprintf at h
  split at h
  · cases h
    rfl
  · exact length_store h

end

-- The conversion of `%02x`
def hexDigit (n : ℕ) : UInt8 := UInt8.ofNat (if n < 10 then 0x30 + n else 0x57 + n)

def hexOctet (b : UInt8) : Octets := [hexDigit (b.toNat / 16), hexDigit (b.toNat % 16)]

-- The loop of `_wpa_snprintf_hex` over octets from a position of the data on
def hexLoop (data : Octets) (stop : ℕ) : ℕ → ℕ → ℕ → Octets → Option Octets
  | 0, _, _, buf => store buf (stop - 1) [0]
  | len + 1, i, pos, buf =>
    match data[i]? with
    | none => none
    | some b =>
      match osSnprintf buf pos (stop - pos) (hexOctet b) with
      | none => none
      | some buf =>
        if stop - pos ≤ 2 then store buf (stop - 1) [0] else hexLoop data stop len (i + 1) (pos + 2) buf

def wpaSnprintfHex (buf : Octets) (pos size : ℕ) (data : Octets) (i len : ℕ) : Option Octets :=
  if size = 0 then some buf else hexLoop data (pos + size) len i pos buf

-- `mark_end - mark` as a `size_t`
def sizeLeft (mark : ℕ) : ℕ := (2 ^ 64 + infoSize - mark) % 2 ^ 64

-- The loop of `getRoamingConsortium`, and the NUL behind it
def consortiumLoop (list : Octets) : ℕ → ℕ → ℕ → Octets → Option Octets
  | 0, _, _, _ => none
  | fuel + 1, pos, mark, buf =>
    if pos = list.length then store buf mark [0]
    else
      match list[pos]? with
      | none => none
      | some len =>
        match wpaSnprintfHex buf mark (sizeLeft mark) list (pos + 1) len.toNat with
        | none => none
        | some buf =>
          let mark := mark + 2 * len.toNat
          let next := pos + len.toNat + 1
          if next ≠ list.length then
            match store buf mark [0x2c] with
            | none => none
            | some buf => consortiumLoop list fuel next (mark + 1) buf
          else consortiumLoop list fuel next mark buf

-- `getRoamingConsortium`. An iteration moves forward, so that more than the length of the list are never needed.
def getRoamingConsortium (bss : Entry) (buf : Octets) : Option Octets :=
  match bss.anqp.roamingConsortium with
  | none => store buf 0 (ascii "UNSET" ++ [0])
  | some list => consortiumLoop list (list.length + 1) 0 0 buf

-- `methodMap`, up to the last method with a name
def methodMap : List (Option String) :=
  [some "EAP-NONE", some "EAP-IDENTITY", some "EAP-NOTIFICATION", some "EAP-NAK", some "EAP-MD5",
    some "EAP-OTP", some "EAP-GTC", none, none, none,
    none, none, none, some "EAP-TLS", none,
    none, none, some "EAP-LEAP", some "EAP-SIM", none,
    none, some "EAP-TTLS", none, some "EAP-AKA", none,
    some "EAP-PEAP", some "EAP-MSCHAPV2", none, none, none,
    none, none, none, some "EAP-TLV", none,
    none, none, none, some "EAP-TNC", none,
    none, none, none, some "EAP-FAST", none,
    none, some "EAP-PAX", some "EAP-PSK", some "EAP-SAKE", some "EAP-IKEV2",
    some "EAP-AKA-PRIME", some "EAP-GPSK", some "EAP-PWD"]

def methodText (method : UInt8) : Option Octets :=
  if method = 254 then some (ascii "[EPA-EXPANDED]")
  else if 52 < method then some (ascii "[UNDEFINED-EAP-METHOD]")
  else (methodMap.getD method.toNat none).map fun name => ascii ("[" ++ name ++ "]")

-- `insert_string`: whether there is room for a text, and the position behind it
def insertString (pos num : ℕ) : Bool × ℕ := if infoSize - pos ≤ num then (false, pos) else (true, pos + num)

def abiterAppendEapMethod (pos : ℕ) (buf : Octets) (method : UInt8) : Option ((Bool × ℕ) × Octets) :=
  match methodText method with
  | none => none
  | some text => (osSnprintf buf pos (infoSize - pos) text).map fun buf => (insertString pos text.length, buf)

-- The loops of `getAuthMethod` over the methods of a realm and over the realms, with whether to go on
def methodLoop : List UInt8 → ℕ → Octets → Option ((Bool × ℕ) × Octets)
  | [], pos, buf => some ((true, pos), buf)
  | method :: rest, pos, buf =>
    match abiterAppendEapMethod pos buf method with
    | none => none
    | some ((false, pos), buf) => some ((false, pos), buf)
    | some ((true, pos), buf) => methodLoop rest pos buf

def authRealmLoop (conf : HomeConf) : List NaiRealm → ℕ → Octets → Option (ℕ × Octets)
  | [], pos, buf => some (pos, buf)
  | r :: rest, pos, buf =>
    if naiRealmMatch conf r then
      match methodLoop (r.eap.map NaiRealmEap.method) pos buf with
      | none => none
      | some ((false, pos), buf) => some (pos, buf)
      | some ((true, pos), buf) => authRealmLoop conf rest pos buf
    else authRealmLoop conf rest pos buf

-- What `nai_realm_parse` leaves in the variable for the count, which it sets only where it succeeds
def realmCount (anqp : Octets) : Option ℕ := (naiRealmParse anqp).map List.length

-- What `getAuthMethod` writes behind its loops
def endOfList (pos : ℕ) (buf : Octets) : Option Octets :=
  if pos = 0 then
    let text := ascii "No Matched Realm"
    match osSnprintf buf 0 infoSize text with
    | none => none
    | some buf => store buf (insertString 0 text.length).2 [0]
  else store buf pos [0]

-- `getAuthMethod`
def getAuthMethod (conf : HomeConf) (bss : Entry) (buf : Octets) : Option Octets :=
  match bss.anqp.naiRealm with
  | none => store buf 0 (ascii "UNSET" ++ [0])
  | some anqp =>
    match realmCount anqp with
    | none => none
    | some count =>
      match authRealmLoop conf (((naiRealmParse anqp).getD []).take count) 0 buf with
      | none => none
      | some (pos, buf) => endOfList pos buf

end WpaSupplicant.Arbiter
