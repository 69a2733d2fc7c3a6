import WpaSupplicant.Lib.Checked
import WpaSupplicant.Supplicant.Install

namespace WpaSupplicant.Supplicant

open Lib.Octets Lib.Buffer Lib.Checked

-- The decryption of key data in the memory of a frame. Nothing comes of a function that reads or writes outside of
-- the key data.

-- The state of `rc4_skip`
structure Rc4 where
  i : UInt8 := 0
  j : UInt8 := 0
  s : UInt8 → UInt8 := id

-- `S_SWAP`
def Rc4.swap (c : Rc4) : Rc4 :=
  { c with s := Function.update (Function.update c.s c.i (c.s c.j)) c.j (c.s c.i) }

def Rc4.setup (c : Rc4) (k : UInt8) : Rc4 :=
  let c := { c with j := c.j + c.s c.i + k }
  { c.swap with i := c.i + 1 }

def Rc4.next (c : Rc4) : Rc4 :=
  let c := { c with i := c.i + 1 }
  let c := { c with j := c.j + c.s c.i }
  c.swap

def Rc4.octet (c : Rc4) : UInt8 := c.s (c.s c.i + c.s c.j)

-- The state of `rc4_skip` before the data
def rc4Start (key : Octets) (skip : ℕ) : Rc4 :=
  let c := (List.range 256).foldl (fun c i => c.setup (key.getD (i % key.length) 0)) ({} : Rc4)
  Nat.iterate Rc4.next skip { c with i := 0, j := 0 }

-- The loop of `rc4_skip` over the data
def rc4Loop : ℕ → ℕ → Rc4 → Octets → Option Octets
  | 0, _, _, data => some data
  | len + 1, pos, c, data =>
    match data[pos]? with
    | none => none
    | some b =>
      match store data pos [b ^^^ c.next.octet] with
      | none => none
      | some data => rc4Loop len (pos + 1) c.next data

def rc4Skip (key : Octets) (skip : ℕ) (data : Octets) (len : ℕ) : Option Octets := rc4Loop len 0 (rc4Start key skip) data

section AesUnwrap

-- `aes_decrypt` of a block
variable (aesDecrypt : BitVec 128 → BitVec 128 → BitVec 128) (kek : BitVec 128)

-- The inner loop of `aes_unwrap`, from `R[i]` down, where `t` is `n * j`
def unwrapPass (t : ℕ) : ℕ → BitVec 64 → Octets → BitVec 64 × Octets
  | 0, a, r => (a, r)
  | i + 1, a, r =>
    let b := aesDecrypt kek ((a ^^^ BitVec.ofNat 64 ((t + (i + 1)) % 256)) ++ getBE 64 (field r (8 * i) 8))
    unwrapPass t i (b.extractLsb' 64 64) (patch r (8 * i) (putBE 8 (b.extractLsb' 0 64)))

def unwrapLoop (n : ℕ) : ℕ → BitVec 64 → Octets → BitVec 64 × Octets
  | 0, a, r => (a, r)
  | j + 1, a, r =>
    let (a, r) := unwrapPass aesDecrypt kek (n * j) n a r
    unwrapLoop n j a r

-- `aes_unwrap`: what it leaves in the buffer for the plaintext, and whether it succeeds
def aesUnwrap (n : ℕ) (cipher : Octets) : Option (Octets × Bool) :=
  match load cipher 0 8, load cipher 8 (8 * n) with
  | some a, some r =>
    let (a, plain) := unwrapLoop aesDecrypt kek n 6 (getBE 64 a) r
    some (plain, a = 0xa6a6a6a6a6a6a6a6)
  | _, _ => none

end AesUnwrap

section Decrypt

variable (aesDecrypt : BitVec 128 → BitVec 128 → BitVec 128)

-- `keydatalen -= 8`
def unwrappedLen (keydatalen : BitVec 16) : BitVec 16 := keydatalen - 8

-- `wpa_supplicant_decrypt_key_data` on the octets of the key data: these octets and their number behind it, if it
-- does not return -1.
def decryptKeyData (sm : Sm) (f : EapolKey) (ver : KeyInfo) (alloc : Bool) (keyData : Octets) :
    Option (Option (Octets × BitVec 16)) :=
  let keydatalen := f.keyDataLength
  if !sm.ptkSet then some none
  else if ver = KeyInfo.typeHmacMd5Rc4 then
    let ek := putBE 16 f.keyIv ++ putBE 16 sm.ptk.kek
    (rc4Skip ek 256 keyData keydatalen.toNat).map fun keyData => some (keyData, keydatalen)
  else if ver = KeyInfo.typeHmacSha1Aes ∨ ver = KeyInfo.typeAes128Cmac then
    if keydatalen.toNat % 8 ≠ 0 then some none
    else
      let keydatalen := unwrappedLen keydatalen
      if !alloc then some none
      else
        match aesUnwrap aesDecrypt sm.ptk.kek (keydatalen.toNat / 8) keyData with
        | none => none
        | some (_, false) => some none
        | some (buf, true) => (store keyData 0 (buf.take keydatalen.toNat)).map fun keyData => some (keyData, keydatalen)
  else some none

end Decrypt

section Bounds

theorem rc4Loop_spec {len pos : ℕ} (c : Rc4) {data : Octets} (h : pos + len ≤ data.length) :
    ∃ data', rc4Loop len pos c data = some data' ∧ data'.length = data.length := by
  induction len generalizing pos c data with
  | zero => exact ⟨data, rfl, rfl⟩
  | succ len ih =>
    have hpos : pos < data.length := by omega
    obtain ⟨data₁, hstore⟩ := Option.isSome_iff_exists.mp
      (isSome_store.2 (by rw [List.length_singleton]; omega :
        pos + [data[pos] ^^^ c.next.octet].length ≤ data.length))
    have hlen := length_store hstore
    have hrest : pos + 1 + len ≤ data₁.length := by omega
    obtain ⟨data', hloop, hdata'⟩ := ih c.next hrest
    refine ⟨data', ?_, hdata'.trans hlen⟩
    rw [rc4Loop, List.getElem?_eq_getElem hpos]
    dsimp only
    rw [hstore]
    exact hloop

variable (aesDecrypt : BitVec 128 → BitVec 128 → BitVec 128) (kek : BitVec 128)

theorem length_unwrapPass (t : ℕ) {i : ℕ} (a : BitVec 64) {r : Octets} (h : 8 * i ≤ r.length) :
    (unwrapPass aesDecrypt kek t i a r).2.length = r.length := by
  induction i generalizing a r with
  | zero => rfl
  | succ i ih =>
    have hpatch : ∀ x : BitVec 64, (patch r (8 * i) (putBE 8 x)).length = r.length := by
      intro x
      simp only [patch, List.length_append, List.length_take, List.length_drop, length_putBE]
      omega
    rw [unwrapPass]
    exact (ih _ (by rw [hpatch]; omega)).trans (hpatch _)

theorem length_unwrapLoop {n : ℕ} (j : ℕ) (a : BitVec 64) {r : Octets} (h : 8 * n ≤ r.length) :
    (unwrapLoop aesDecrypt kek n j a r).2.length = r.length := by
  induction j generalizing a r with
  | zero => rfl
  | succ j ih =>
    have hpass := length_unwrapPass aesDecrypt kek (n * j) a h
    rw [unwrapLoop]
    exact (ih _ (by rw [hpass]; exact h)).trans hpass

theorem isSome_aesUnwrap {n : ℕ} {cipher : Octets} :
    (aesUnwrap aesDecrypt kek n cipher).isSome ↔ 8 + 8 * n ≤ cipher.length := by
  unfold aesUnwrap
  by_cases h : 8 + 8 * n ≤ cipher.length
  · simp [load, h, show 8 ≤ cipher.length by omega]
  · simp [load, h]

theorem length_aesUnwrap {n : ℕ} {cipher plain : Octets} {ok : Bool}
    (h : aesUnwrap aesDecrypt kek n cipher = some (plain, ok)) : plain.length = 8 * n := by
  have hlen := (isSome_aesUnwrap aesDecrypt kek).mp (Option.isSome_iff_exists.mpr ⟨_, h⟩)
  have hfield : (field cipher 8 (8 * n)).length = 8 * n := by
    simp only [field, List.length_take, List.length_drop]
    omega
  rw [aesUnwrap, load, if_pos (by omega), load, if_pos hlen] at h
  simp only [Option.some.injEq, Prod.mk.injEq] at h
  rw [← h.1, length_unwrapLoop aesDecrypt kek 6 _ hfield.ge, hfield]

-- Eight can be taken off every length that is a multiple of eight but zero.
theorem unwrappedLen_iff {len : BitVec 16} (h : len.toNat % 8 = 0) :
    (unwrappedLen len).toNat + 8 = len.toNat ↔ len ≠ 0 := by
  have hlt := len.isLt
  have hzero : len = 0 ↔ len.toNat = 0 := by
    rw [← BitVec.toNat_inj]
    rfl
  rw [ne_eq, hzero, unwrappedLen, BitVec.toNat_sub]
  simp only [BitVec.reduceToNat] at *
  omega

end Bounds

section Refinement

variable (aesDecrypt : BitVec 128 → BitVec 128 → BitVec 128)

-- The primitives are those of the source.
structure Computes (cr : Crypto) : Prop where
  rc4 : ∀ key skip data, rc4Skip key skip data data.length = some (cr.rc4Skip key skip data)
  unwrap : ∀ kek n cipher plain ok, cipher.length = 8 + 8 * n → aesUnwrap aesDecrypt kek n cipher = some (plain, ok) →
    cr.aesUnwrap kek cipher = if ok then some plain else none

theorem length_keyDataOf {f : EapolKey} (h : f.keyDataLength.toNat ≤ f.keyData.length) :
    (keyDataOf f).length = f.keyDataLength.toNat := by
  rw [keyDataOf, List.length_take]
  omega

-- A read outside and a refusal come to the same here: they are told apart below.
theorem decryptKeyData_join {cr : Crypto} (hcr : Computes aesDecrypt cr) (env : Env) (f : EapolKey) (ver : KeyInfo) (c : Ctx)
    (hpresent : f.keyDataLength.toNat ≤ f.keyData.length) :
    (wpaSupplicantDecryptKeyData cr env f ver c).2 =
      (decryptKeyData aesDecrypt c.sm f ver (env.alloc c.tick) (keyDataOf f)).join.map
        fun r => withKeyData f (r.1.take r.2.toNat) := by
  have hlen := length_keyDataOf hpresent
  by_cases hset : c.sm.ptkSet = true
  · by_cases hrc4 : ver = KeyInfo.typeHmacMd5Rc4
    · have hsame : ∀ key, (cr.rc4Skip key 256 (keyDataOf f)).take f.keyDataLength.toNat =
          cr.rc4Skip key 256 (keyDataOf f) := by
        intro key
        obtain ⟨data, hdata, hdatalen⟩ := rc4Loop_spec (rc4Start key 256) (Nat.zero_add (keyDataOf f).length).le
        have hcomputed := (hcr.rc4 key 256 (keyDataOf f)).symm.trans hdata
        rw [Option.some.inj hcomputed]
        exact List.take_of_length_le (by omega)
      have hcomputed := fun key => hlen ▸ hcr.rc4 key 256 (keyDataOf f)
      simp [wpaSupplicantDecryptKeyData, decryptKeyData, hset, hrc4, hcomputed, hsame]
    · by_cases haes : ver = KeyInfo.typeHmacSha1Aes ∨ ver = KeyInfo.typeAes128Cmac
      · by_cases hmod : f.keyDataLength.toNat % 8 = 0
        · cases halloc : env.alloc c.tick with
          | false => simp [wpaSupplicantDecryptKeyData, decryptKeyData, hset, hrc4, haes, hlen, hmod, halloc]
          | true =>
            by_cases hzero : f.keyDataLength = 0
            · have hnat : f.keyDataLength.toNat = 0 := congrArg BitVec.toNat hzero
              have hnone : aesUnwrap aesDecrypt c.sm.ptk.kek ((unwrappedLen f.keyDataLength).toNat / 8) (keyDataOf f) =
                  none := by
                rw [← Option.not_isSome_iff_eq_none, isSome_aesUnwrap, hlen, hzero]
                decide
              simp [wpaSupplicantDecryptKeyData, decryptKeyData, hset, hrc4, haes, hlen, halloc, hnat, hnone]
            · have hsub := (unwrappedLen_iff hmod).mpr hzero
              have hpos : f.keyDataLength.toNat ≠ 0 := by omega
              have hwrapped : (keyDataOf f).length = 8 + 8 * ((unwrappedLen f.keyDataLength).toNat / 8) := by omega
              obtain ⟨⟨plain, ok⟩, hunwrap⟩ := Option.isSome_iff_exists.mp
                ((isSome_aesUnwrap aesDecrypt c.sm.ptk.kek).mpr hwrapped.ge)
              have hplain := length_aesUnwrap aesDecrypt c.sm.ptk.kek hunwrap
              have htake : plain.take (unwrappedLen f.keyDataLength).toNat = plain :=
                List.take_of_length_le (by omega)
              have hcomputed := hcr.unwrap _ _ _ _ _ hwrapped hunwrap
              cases ok with
              | false =>
                simp [wpaSupplicantDecryptKeyData, decryptKeyData, hset, hrc4, haes, hlen, hmod, halloc, hpos, hunwrap,
                  hcomputed]
              | true =>
                have hstore := store_append [] (by omega : plain.length ≤ (keyDataOf f).length)
                rw [List.nil_append, List.nil_append, List.length_nil] at hstore
                have hback : (plain ++ (keyDataOf f).drop plain.length).take (unwrappedLen f.keyDataLength).toNat =
                    plain := by
                  rw [show (unwrappedLen f.keyDataLength).toNat = plain.length by omega, List.take_left]
                simp [wpaSupplicantDecryptKeyData, decryptKeyData, hset, hrc4, haes, hlen, hmod, halloc, hpos, hunwrap,
                  hcomputed, htake, hstore, hback]
        · simp [wpaSupplicantDecryptKeyData, decryptKeyData, hset, hrc4, haes, hlen, hmod]
      · simp [wpaSupplicantDecryptKeyData, decryptKeyData, hset, hrc4, haes]
  · simp [wpaSupplicantDecryptKeyData, decryptKeyData, hset]

end Refinement

section Theorems

variable (aesDecrypt : BitVec 128 → BitVec 128 → BitVec 128)

def IsAesWrap (ver : KeyInfo) : Prop := ver = KeyInfo.typeHmacSha1Aes ∨ ver = KeyInfo.typeAes128Cmac

-- Only the key data are read and written, there are not more of them behind it, and eight is subtracted from no less.
structure DecryptsInBounds (sm : Sm) (f : EapolKey) (ver : KeyInfo) (alloc : Bool) : Prop where
  inBounds : ∃ r, decryptKeyData aesDecrypt sm f ver alloc (keyDataOf f) = some r ∧
    ∀ keyData len, r = some (keyData, len) →
      keyData.length = f.keyDataLength.toNat ∧ len.toNat ≤ f.keyDataLength.toNat
  noUnderflow : sm.ptkSet = true → IsAesWrap ver → f.keyDataLength.toNat % 8 = 0 →
    (unwrappedLen f.keyDataLength).toNat + 8 = f.keyDataLength.toNat

theorem decryptKeyData_some {sm : Sm} {f : EapolKey} {ver : KeyInfo} (alloc : Bool)
    (hpresent : f.keyDataLength.toNat ≤ f.keyData.length)
    (h : ¬(sm.ptkSet = true ∧ IsAesWrap ver ∧ f.keyDataLength = 0)) :
    ∃ r, decryptKeyData aesDecrypt sm f ver alloc (keyDataOf f) = some r ∧
      ∀ keyData len, r = some (keyData, len) →
        keyData.length = f.keyDataLength.toNat ∧ len.toNat ≤ f.keyDataLength.toNat := by
  have hlen := length_keyDataOf hpresent
  unfold decryptKeyData
  cases hset : sm.ptkSet with
  | false => exact ⟨none, rfl, by simp⟩
  | true =>
    rw [if_neg (by simp)]
    dsimp only
    split
    · obtain ⟨data, hdata, hdatalen⟩ := rc4Loop_spec
        (rc4Start (putBE 16 f.keyIv ++ putBE 16 sm.ptk.kek) 256)
        (by rw [hlen]; omega : 0 + f.keyDataLength.toNat ≤ (keyDataOf f).length)
      refine ⟨_, by rw [rc4Skip, hdata]; rfl, ?_⟩
      rintro keyData len hr
      cases hr
      exact ⟨hdatalen.trans hlen, le_rfl⟩
    · split
      · rename_i hver
        split
        · exact ⟨none, rfl, by simp⟩
        rename_i hmod
        have hmod : f.keyDataLength.toNat % 8 = 0 := by omega
        have hsub := (unwrappedLen_iff hmod).mpr fun hzero => h ⟨hset, hver, hzero⟩
        split
        · exact ⟨none, rfl, by simp⟩
        have hwrapped : 8 + 8 * ((unwrappedLen f.keyDataLength).toNat / 8) ≤ (keyDataOf f).length := by omega
        obtain ⟨⟨buf, ok⟩, hunwrap⟩ := Option.isSome_iff_exists.mp
          ((isSome_aesUnwrap aesDecrypt sm.ptk.kek).mpr hwrapped)
        rw [hunwrap]
        cases ok with
        | false => exact ⟨none, rfl, by simp⟩
        | true =>
          have hfits : 0 + (buf.take (unwrappedLen f.keyDataLength).toNat).length ≤ (keyDataOf f).length := by
            rw [List.length_take]
            omega
          obtain ⟨data, hstore⟩ := Option.isSome_iff_exists.mp (isSome_store.2 hfits)
          refine ⟨_, by dsimp only; rw [hstore]; rfl, ?_⟩
          rintro keyData len hr
          cases hr
          exact ⟨(length_store hstore).trans hlen, by omega⟩
      · exact ⟨none, rfl, by simp⟩

theorem decrypts_in_bounds (sm : Sm) (f : EapolKey) (ver : KeyInfo) (alloc : Bool)
    (hpresent : f.keyDataLength.toNat ≤ f.keyData.length) :
    DecryptsInBounds aesDecrypt sm f ver alloc ↔ ¬(sm.ptkSet = true ∧ IsAesWrap ver ∧ f.keyDataLength = 0) := by
  constructor
  · rintro h ⟨hset, hver, hzero⟩
    have hmod : f.keyDataLength.toNat % 8 = 0 := by
      rw [hzero]
      rfl
    exact (unwrappedLen_iff hmod).mp (h.noUnderflow hset hver hmod) hzero
  · intro h
    exact ⟨decryptKeyData_some aesDecrypt alloc hpresent h,
      fun hset hver hmod => (unwrappedLen_iff hmod).mpr fun hzero => h ⟨hset, hver, hzero⟩⟩

def keyedSm : Sm := { initial sampleConf with ptkSet := true }

def wrappedFrame (len : ℕ) : EapolKey :=
  sampleFrame (KeyInfo.typeHmacSha1Aes ||| KeyInfo.keyTypeBit ||| KeyInfo.ackBit ||| KeyInfo.encrKeyDataBit) 1
    (List.replicate len 0)

theorem one_block_decrypts_in_bounds : DecryptsInBounds (fun _ b => b) keyedSm (wrappedFrame 16)
      KeyInfo.typeHmacSha1Aes true ↔
    ¬(keyedSm.ptkSet = true ∧ IsAesWrap KeyInfo.typeHmacSha1Aes ∧ (wrappedFrame 16).keyDataLength = 0) :=
  decrypts_in_bounds (fun _ b => b) keyedSm (wrappedFrame 16) KeyInfo.typeHmacSha1Aes true (by decide)

-- The primitives of the source on a block cipher
def computing (cr : Crypto) : Crypto where
  __ := cr
  rc4Skip key skip data := (rc4Skip key skip data data.length).getD []
  aesUnwrap kek cipher :=
    (aesUnwrap aesDecrypt kek (cipher.length / 8 - 1) cipher).bind fun r => if r.2 then some r.1 else none

theorem computes_computing (cr : Crypto) : Computes aesDecrypt (computing aesDecrypt cr) where
  rc4 key skip data := by
    obtain ⟨data', hloop, -⟩ := rc4Loop_spec (rc4Start key skip) (Nat.zero_add data.length).le
    have hskip : rc4Skip key skip data data.length = some data' := hloop
    simp [computing, hskip]
  unwrap kek n cipher plain ok hlen hunwrap := by
    have hn : cipher.length / 8 - 1 = n := by omega
    simp [computing, hn, hunwrap]

-- Where the memory is the key data only, the frame that comes of it is that of the state machine, and only empty
-- wrapped key data are read outside, which the state machine refuses.
theorem decrypt_refines {cr : Crypto} (hcr : Computes aesDecrypt cr) (env : Env) (f : EapolKey) (ver : KeyInfo) (c : Ctx)
    (hpresent : f.keyDataLength.toNat ≤ f.keyData.length) :
    (∀ r, decryptKeyData aesDecrypt c.sm f ver (env.alloc c.tick) (keyDataOf f) = some r →
      (wpaSupplicantDecryptKeyData cr env f ver c).2 = r.map fun r => withKeyData f (r.1.take r.2.toNat)) ∧
    (decryptKeyData aesDecrypt c.sm f ver (env.alloc c.tick) (keyDataOf f) = none →
      (c.sm.ptkSet = true ∧ IsAesWrap ver ∧ f.keyDataLength = 0) ∧
        (wpaSupplicantDecryptKeyData cr env f ver c).2 = none) := by
  have hjoin := decryptKeyData_join aesDecrypt hcr env f ver c hpresent
  refine ⟨fun r hr => ?_, fun hnone => ⟨?_, ?_⟩⟩
  · rw [hjoin, hr]
    rfl
  · by_contra hno
    obtain ⟨r, hr, -⟩ := decryptKeyData_some aesDecrypt (env.alloc c.tick) hpresent hno
    rw [hnone] at hr
    cases hr
  · rw [hjoin, hnone]
    rfl

-- One wrapped block, and empty key data
theorem decrypt_refines_one_block :
    (∀ r, decryptKeyData (fun _ b => b) keyedSm (wrappedFrame 16) KeyInfo.typeHmacSha1Aes (Env.benign.alloc 0)
        (keyDataOf (wrappedFrame 16)) = some r →
      (wpaSupplicantDecryptKeyData (computing (fun _ b => b) .transparent) .benign (wrappedFrame 16)
        KeyInfo.typeHmacSha1Aes ⟨keyedSm, 0, []⟩).2 =
          r.map fun r => withKeyData (wrappedFrame 16) (r.1.take r.2.toNat)) ∧
    (wpaSupplicantDecryptKeyData (computing (fun _ b => b) .transparent) .benign (wrappedFrame 0)
      KeyInfo.typeHmacSha1Aes ⟨keyedSm, 0, []⟩).2 = none :=
  ⟨(decrypt_refines (fun _ b => b) (computes_computing _ _) .benign (wrappedFrame 16) KeyInfo.typeHmacSha1Aes
      ⟨keyedSm, 0, []⟩ (by decide)).1,
    ((decrypt_refines (fun _ b => b) (computes_computing _ _) .benign (wrappedFrame 0) KeyInfo.typeHmacSha1Aes
      ⟨keyedSm, 0, []⟩ (by decide)).2 (by decide)).2⟩

theorem empty_key_data_underflows :
    (wrappedFrame 0).keyDataLength = 0 ∧
      ¬DecryptsInBounds (fun _ b => b) keyedSm (wrappedFrame 0) KeyInfo.typeHmacSha1Aes true := by
  refine ⟨rfl, fun hempty => ?_⟩
  have hunderflow := hempty.noUnderflow rfl (Or.inl rfl) (by decide)
  revert hunderflow
  decide

end Theorems

end WpaSupplicant.Supplicant
