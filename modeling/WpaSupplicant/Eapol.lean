import WpaSupplicant.Common

namespace WpaSupplicant

open Lib.Octets

-- An EAPOL-Key frame: `struct ieee802_1x_hdr`, `struct wpa_eapol_key` and the octets that
-- follow them in the buffer. `keyData` is everything behind the fixed part: how much of it is
-- key data is what `keyDataLength` claims.
structure EapolKey where
  hdrVersion : UInt8
  hdrType : UInt8
  hdrLength : BitVec 16
  type : UInt8
  keyInfo : KeyInfo
  keyLength : BitVec 16
  replayCounter : ReplayCounter
  keyNonce : Nonce
  keyIv : BitVec 128
  keyRsc : BitVec 64
  keyId : BitVec 64
  keyMic : BitVec 128
  keyDataLength : BitVec 16
  keyData : Octets
  deriving DecidableEq, Repr

def ieee8021xTypeEapolKey : UInt8 := 3

-- `EAPOL_KEY_TYPE_RSN`, `EAPOL_KEY_TYPE_WPA`
def eapolKeyTypeRsn : UInt8 := 2
def eapolKeyTypeWpa : UInt8 := 254

namespace EapolKey

-- `sizeof(struct ieee802_1x_hdr)` and `sizeof(struct wpa_eapol_key)`
def hdrSize : ℕ := 4
def keySize : ℕ := 95

def clearMic (f : EapolKey) : EapolKey := { f with keyMic := 0 }

def toOctets (f : EapolKey) : Octets :=
  [f.hdrVersion, f.hdrType] ++ (putBE 2 f.hdrLength ++ ([f.type] ++ (putBE 2 f.keyInfo ++
  (putBE 2 f.keyLength ++ (putBE 8 f.replayCounter ++ (putBE 32 f.keyNonce ++ (putBE 16 f.keyIv ++
  (putBE 8 f.keyRsc ++ (putBE 8 f.keyId ++ (putBE 16 f.keyMic ++ (putBE 2 f.keyDataLength ++
  f.keyData)))))))))))

-- The structure cast of the source; `none` if the buffer does not hold both headers.
def ofOctets? (buf : Octets) : Option EapolKey :=
  if buf.length < hdrSize + keySize then none
  else some {
    hdrVersion := buf.getD 0 0
    hdrType := buf.getD 1 0
    hdrLength := getBE 16 ((buf.drop 2).take 2)
    type := buf.getD 4 0
    keyInfo := getBE 16 ((buf.drop 5).take 2)
    keyLength := getBE 16 ((buf.drop 7).take 2)
    replayCounter := getBE 64 ((buf.drop 9).take 8)
    keyNonce := getBE 256 ((buf.drop 17).take 32)
    keyIv := getBE 128 ((buf.drop 49).take 16)
    keyRsc := getBE 64 ((buf.drop 65).take 8)
    keyId := getBE 64 ((buf.drop 73).take 8)
    keyMic := getBE 128 ((buf.drop 81).take 16)
    keyDataLength := getBE 16 ((buf.drop 97).take 2)
    keyData := buf.drop 99 }

theorem length_toOctets (f : EapolKey) :
    f.toOctets.length = hdrSize + keySize + f.keyData.length := by
  simp [toOctets, hdrSize, keySize]
  omega

private theorem take_drop_append (buf : Octets) (k n m : ℕ) (hm : m = k + n) :
    (buf.drop k).take n ++ buf.drop m = buf.drop k := by
  rw [hm, ← List.drop_drop, List.take_append_drop]

private theorem getD_drop_append (buf : Octets) (k m : ℕ) (hm : m = k + 1) (hk : k < buf.length) :
    [buf.getD k 0] ++ buf.drop m = buf.drop k := by
  rw [hm, List.drop_eq_getElem_cons hk]
  simp [List.getD, hk]

-- The frame type holds exactly the buffers that are long enough for both headers.
theorem ofOctets?_toOctets (f : EapolKey) : ofOctets? f.toOctets = some f := by
  have hlen : ¬ f.toOctets.length < hdrSize + keySize := by
    rw [length_toOctets]
    omega
  rw [ofOctets?, if_neg hlen]
  simp [toOctets, List.drop_append, List.drop_of_length_le, getBE_putBE]

theorem toOctets_of_ofOctets? (buf : Octets) (f : EapolKey) (h : ofOctets? buf = some f) :
    f.toOctets = buf := by
  by_cases hlen : buf.length < hdrSize + keySize
  · rw [ofOctets?, if_pos hlen] at h
    simp at h
  rw [ofOctets?, if_neg hlen, Option.some.injEq] at h
  subst h
  simp only [hdrSize, keySize, not_lt] at hlen
  have hfield (w n k : ℕ) (hw : w = 8 * n) (hk : k + n ≤ 99) :
      putBE n (getBE w ((buf.drop k).take n)) = (buf.drop k).take n := by
    apply putBE_getBE w n _ hw
    simp
    omega
  have hhead : [buf.getD 0 0, buf.getD 1 0] ++ buf.drop 2 = buf := by
    have h0 := getD_drop_append buf 0 1 rfl (by omega)
    have h1 := getD_drop_append buf 1 2 rfl (by omega)
    rw [← h1] at h0
    simpa using h0
  rw [toOctets, hfield 16 2 2 rfl (by omega), hfield 16 2 5 rfl (by omega),
    hfield 16 2 7 rfl (by omega), hfield 64 8 9 rfl (by omega), hfield 256 32 17 rfl (by omega),
    hfield 128 16 49 rfl (by omega), hfield 64 8 65 rfl (by omega),
    hfield 64 8 73 rfl (by omega), hfield 128 16 81 rfl (by omega),
    hfield 16 2 97 rfl (by omega)]
  rw [take_drop_append buf 97 2 99 rfl, take_drop_append buf 81 16 97 rfl,
    take_drop_append buf 73 8 81 rfl, take_drop_append buf 65 8 73 rfl,
    take_drop_append buf 49 16 65 rfl, take_drop_append buf 17 32 49 rfl,
    take_drop_append buf 9 8 17 rfl, take_drop_append buf 7 2 9 rfl,
    take_drop_append buf 5 2 7 rfl, getD_drop_append buf 4 5 rfl (by omega),
    take_drop_append buf 2 2 4 rfl]
  exact hhead

-- The frames are in one-to-one correspondence with the octet strings that hold both headers.
theorem ofOctets_eq_iff (buf : Octets) (f : EapolKey) : ofOctets? buf = some f ↔ f.toOctets = buf := by
  constructor
  · exact toOctets_of_ofOctets? buf f
  · rintro rfl
    exact ofOctets?_toOctets f

end EapolKey

end WpaSupplicant
