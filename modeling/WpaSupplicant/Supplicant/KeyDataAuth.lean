import WpaSupplicant.Supplicant.Install

namespace WpaSupplicant.Supplicant

open Lib.Octets KeyData

def KekAfterMic (out : List Out) : Prop :=
  ∀ l kek l', out = l ++ .useKek kek :: l' → ∃ kck f, .micVerified kck f ∈ l

-- A frame that says its key data is encrypted but carries no MIC has no effect. The bit exists
-- in the frames of RSN only.
def DropsUnauthenticated (sm : Sm) (data : Octets) (c : Ctx) : Prop :=
  ∀ f, received data = some f → sm.conf.proto = .rsn → f.keyInfo.encrKeyData = true →
    f.keyInfo.mic = false → c.out = [] ∧ c.sm = sm

def DecryptsWith (env : Env) (tick : ℕ) (sm : Sm) (f : EapolKey) : Prop :=
  sm.ptkSet = true ∧ (f.keyInfo.ver = KeyInfo.typeHmacMd5Rc4 ∨
    ((keyDataOf f).length % 8 = 0 ∧ env.alloc tick = true))

-- The frames that are decrypted although nothing authenticates them: they pass every check, their
-- MIC bit is clear, and their key data is marked as encrypted.
def UnauthenticatedDecryption (env : Env) (sm : Sm) (src : Addr) (data : Octets) : Prop :=
  ∃ f, EapolKey.ofOctets? data = some f ∧ env.alloc 0 = true ∧ rxHeaderOk f = true ∧
    rxChecks sm src (rxFrame f) = true ∧ (rxFrame f).keyInfo.mic = false ∧
    (rxFrame f).keyDataLength.toNat ≤ (rxFrame f).keyData.length ∧ sm.conf.proto = .rsn ∧
    (rxFrame f).keyInfo.encrKeyData = true ∧ DecryptsWith env 1 sm (rxFrame f)

section

variable {cr : Crypto} {env : Env} {src : Addr} {f : EapolKey} {c : Ctx}

-- The descriptor versions that get past the checks
theorem ver_of_rxChecks {sm : Sm} (h : rxChecks sm src f = true) :
    f.keyInfo.ver = KeyInfo.typeHmacMd5Rc4 ∨ f.keyInfo.ver = KeyInfo.typeHmacSha1Aes ∨
      f.keyInfo.ver = KeyInfo.typeAes128Cmac := by
  simp only [rxChecks, rxVersionOk, Bool.and_eq_true, Bool.or_eq_true, decide_eq_true_eq] at h
  obtain ⟨⟨⟨h | h, -⟩, -⟩, -⟩ := h
  · rcases h with h | h
    · exact .inl h
    · exact .inr (.inr h)
  · exact .inr (.inl h)

theorem decrypt_of_decryptsWith (cr : Crypto) (hver : f.keyInfo.ver = KeyInfo.typeHmacMd5Rc4 ∨
      f.keyInfo.ver = KeyInfo.typeHmacSha1Aes ∨ f.keyInfo.ver = KeyInfo.typeAes128Cmac)
    (h : DecryptsWith env c.tick c.sm f) :
    (wpaSupplicantDecryptKeyData cr env f f.keyInfo.ver c).1.out =
      c.out ++ [.useKek c.sm.ptk.kek] := by
  obtain ⟨hset, hcase⟩ := h
  by_cases hrc4 : f.keyInfo.ver = KeyInfo.typeHmacMd5Rc4
  · simp [wpaSupplicantDecryptKeyData, hset, hrc4, Ctx.emit]
  have haes : f.keyInfo.ver = KeyInfo.typeHmacSha1Aes ∨ f.keyInfo.ver = KeyInfo.typeAes128Cmac :=
    hver.resolve_left hrc4
  obtain ⟨hlen, halloc⟩ := hcase.resolve_left hrc4
  simp only [wpaSupplicantDecryptKeyData, hset, hrc4, haes, hlen, halloc]
  by_cases hzero : (keyDataOf f).length = 0
  · simp [hzero, Ctx.emit, Ctx.ask]
  · simp [hzero, Ctx.emit, Ctx.ask]

theorem decrypt_of_not_decryptsWith (cr : Crypto) (h : ¬ DecryptsWith env c.tick c.sm f) :
    (wpaSupplicantDecryptKeyData cr env f f.keyInfo.ver c).1.out = c.out ∧
      (wpaSupplicantDecryptKeyData cr env f f.keyInfo.ver c).2 = none := by
  rw [DecryptsWith, not_and_or, not_or, not_and_or] at h
  simp only [wpaSupplicantDecryptKeyData]
  split
  · exact ⟨rfl, rfl⟩
  rename_i hset
  have hset : c.sm.ptkSet = true := by simpa using hset
  obtain ⟨hrc4, hcase⟩ := h.resolve_left fun hno => hno hset
  rw [if_neg hrc4]
  split
  · split
    · exact ⟨rfl, rfl⟩
    rename_i hlen
    have halloc : env.alloc c.tick ≠ true := hcase.resolve_left fun hno => hlen (by simpa using hno)
    rw [if_pos (by simpa using halloc)]
    exact ⟨rfl, rfl⟩
  · exact ⟨rfl, rfl⟩

theorem rxDispatch_out (cr : Crypto) (env : Env) (src : Addr) (f : EapolKey) (c : Ctx) :
    ∃ l, (rxDispatch cr env src f c).1.out = c.out ++ l ∧
      (f.keyInfo.mic = false → ∀ o ∈ l, ∀ kek, o ≠ .useKek kek) := by
  have hsame : ∃ l, c.out = c.out ++ l ∧
      (f.keyInfo.mic = false → ∀ o ∈ l, ∀ kek, o ≠ .useKek kek) := ⟨[], by simp, by simp⟩
  have hsmk := (peerkeyRxEapolSmk_does cr env src f f.keyInfo.ver
    (.refl (.refl c.sm) : Does KeptKeys PeerOut c c)).emitted
  obtain ⟨ls, hls, halls⟩ := hsmk
  have hsmk : ∃ l, (peerkeyRxEapolSmk cr env src f f.keyInfo.ver c).out = c.out ++ l ∧
      (f.keyInfo.mic = false → ∀ o ∈ l, ∀ kek, o ≠ .useKek kek) := by
    refine ⟨ls, hls, fun _ o ho kek hk => ?_⟩
    subst hk
    exact (halls _ ho).elim
  cases hpeer : rxPeer c.sm src with
  | none =>
    rcases rxDispatch_of_none cr env src f c hpeer with h | ⟨-, h⟩ | ⟨hmic, _, -, h⟩ | h
    · rw [h]
      exact hsame
    · obtain ⟨l, hl, hall⟩ := h.emitted
      refine ⟨l, hl, fun _ o ho kek hk => ?_⟩
      subst hk
      exact (hall _ ho).elim
    · obtain ⟨l, hl, -⟩ := h.emitted
      exact ⟨l, hl, fun hno => by simp [hmic] at hno⟩
    · rw [h]
      exact hsmk
  | some k =>
    obtain ⟨p, hp, -⟩ := rxPeer_some hpeer
    rw [rxDispatch_of_some cr env f hpeer hp]
    split
    · split
      · exact hsame
      obtain ⟨l, hl, hall⟩ := (peerkeyRxEapol4way_does cr env k p f f.keyInfo.ver
        (.refl (.refl c.sm)) hp).emitted
      refine ⟨l, hl, fun _ o ho kek hk => ?_⟩
      subst hk
      exact (hall _ ho).elim
    · split
      · exact hsmk
      split
      · rename_i hmic
        obtain ⟨l, hl, -⟩ := (wpaSupplicantProcess1of2_does cr env f f.keyInfo.ver c).emitted
        exact ⟨l, hl, fun hno => by simp [hmic] at hno⟩
      · exact hsame

theorem rxVerify_of_not_mic (h : f.keyInfo.mic = false) : rxVerify cr src f c = (c, true) := by
  simp [rxVerify, h]

-- With the MIC bit, nothing gets past a check that fails, and the first output of a check that
-- succeeds is that it did.
theorem rxVerify_of_mic {c' : Ctx} {ok : Bool} (hout : c.out = []) (hmic : f.keyInfo.mic = true)
    (h : rxVerify cr src f c = (c', ok)) :
    (ok = true ∧ ∃ kck, c'.out = [.micVerified kck f]) ∨ (ok = false ∧ c'.out = []) := by
  cases hpeer : rxPeer c.sm src with
  | none =>
    rcases rxVerify_of_none hpeer h with ⟨hno, -⟩ | ⟨-, rfl, hver⟩ | ⟨-, rfl, rfl⟩
    · simp [hmic] at hno
    · exact .inl ⟨rfl, _, by rw [hver.out, hout, List.nil_append]⟩
    · exact .inr ⟨rfl, hout⟩
  | some k =>
    obtain ⟨p, hp, -⟩ := rxPeer_some hpeer
    rcases rxVerify_of_some hpeer hp h with ⟨hno, -⟩ | ⟨-, q, -, -, htrue, hfalse⟩
    · simp [hmic] at hno
    cases ok with
    | true => exact .inl ⟨rfl, _, by rw [htrue rfl, hout, List.nil_append]⟩
    | false => exact .inr ⟨rfl, by rw [hfalse rfl, hout]⟩

theorem kekAfterMic_of_head {kck : BitVec 128} {out l : List Out}
    (h : out = .micVerified kck f :: l) : KekAfterMic out := by
  intro l1 kek l2 hsplit
  rw [h] at hsplit
  cases l1 with
  | nil => simp at hsplit
  | cons o l1 =>
    rw [List.cons_append, List.cons.injEq] at hsplit
    exact ⟨kck, f, by simp [← hsplit.1]⟩

theorem kekAfterMic_of_no_kek {out : List Out} (h : ∀ o ∈ out, ∀ kek, o ≠ .useKek kek) :
    KekAfterMic out := by
  intro l kek l' hsplit
  exact absurd rfl (h (.useKek kek) (by simp [hsplit]) kek)

theorem rxKeyFrame_kekAfterMic (hout : c.out = []) (hmic : f.keyInfo.mic = true) :
    KekAfterMic (rxKeyFrame cr env src f c).1.out := by
  have hnil : KekAfterMic ([] : List Out) := kekAfterMic_of_no_kek (by simp)
  rcases rxKeyFrame_cases cr env src f c with h | ⟨-, c1, ok, hv, h⟩
  · rw [h, hout]
    exact hnil
  rcases rxVerify_of_mic hout hmic hv with ⟨-, kck, h1⟩ | ⟨rfl, h1⟩
  · rcases h with h | ⟨-, -, c2, r, hd, h⟩
    · rw [h, h1]
      exact kekAfterMic_of_head rfl
    have h2 : ∃ l, c2.out = .micVerified kck f :: l := by
      obtain ⟨-, h2 | ⟨-, -, -, h2⟩, -⟩ := rxDecrypt_cases hd
      · exact ⟨[], by rw [h2, h1]⟩
      · exact ⟨_, by rw [h2, h1]; rfl⟩
    obtain ⟨l2, h2⟩ := h2
    rcases h with ⟨-, h⟩ | ⟨g, -, h⟩
    · rw [h, h2]
      exact kekAfterMic_of_head rfl
    obtain ⟨l3, h3, -⟩ := rxDispatch_out cr env src g c2
    rw [h, h3, h2]
    exact kekAfterMic_of_head rfl
  · rcases h with h | ⟨h, -⟩
    · rw [h, h1]
      exact hnil
    · simp at h

theorem rxKeyFrame_of_not_mic (cr : Crypto) (env : Env) (src : Addr) (c : Ctx)
    (hout : c.out = []) (hmic : f.keyInfo.mic = false)
    (hdec : ¬ (rxChecks c.sm src f = true ∧ f.keyDataLength.toNat ≤ f.keyData.length ∧
      c.sm.conf.proto = .rsn ∧ f.keyInfo.encrKeyData = true ∧ DecryptsWith env c.tick c.sm f)) :
    KekAfterMic (rxKeyFrame cr env src f c).1.out ∧
      (c.sm.conf.proto = .rsn → f.keyInfo.encrKeyData = true →
        (rxKeyFrame cr env src f c).1.out = [] ∧ (rxKeyFrame cr env src f c).1.sm = c.sm) := by
  have hnil : KekAfterMic ([] : List Out) := kekAfterMic_of_no_kek (by simp)
  rcases rxKeyFrame_cases cr env src f c with h | ⟨hchecks, c1, ok, hv, h⟩
  · rw [h, hout]
    exact ⟨hnil, fun _ _ => ⟨rfl, rfl⟩⟩
  rw [rxVerify_of_not_mic hmic] at hv
  obtain ⟨rfl, rfl⟩ := Prod.mk.inj hv
  rcases h with h | ⟨-, hlen, c2, r, hd, h⟩
  · rw [h, hout]
    exact ⟨hnil, fun _ _ => ⟨rfl, rfl⟩⟩
  by_cases hencr : c.sm.conf.proto = .rsn ∧ f.keyInfo.encrKeyData = true
  · have hno : ¬ DecryptsWith env c.tick c.sm f := fun hw =>
      hdec ⟨hchecks, hlen, hencr.1, hencr.2, hw⟩
    obtain ⟨h1, h2⟩ := decrypt_of_not_decryptsWith cr hno
    obtain ⟨hsm, -, -⟩ := rxDecrypt_cases hd
    rw [rxDecrypt, if_pos hencr] at hd
    rw [hd] at h1 h2
    simp only at h1 h2
    subst h2
    rcases h with ⟨-, h⟩ | ⟨g, hg, -⟩
    · rw [h, h1, hout]
      exact ⟨hnil, fun _ _ => ⟨rfl, hsm⟩⟩
    · simp at hg
  · rw [rxDecrypt, if_neg hencr] at hd
    obtain ⟨rfl, rfl⟩ := Prod.mk.inj hd
    rcases h with ⟨h, -⟩ | ⟨g, hg, h⟩
    · simp at h
    obtain rfl := Option.some.inj hg
    obtain ⟨l, hl, hkek⟩ := rxDispatch_out cr env src f c
    rw [h, hl, hout, List.nil_append]
    exact ⟨kekAfterMic_of_no_kek (hkek hmic), fun h1 h2 => absurd ⟨h1, h2⟩ hencr⟩

theorem rxKeyFrame_of_unauthenticated (cr : Crypto) (env : Env) (src : Addr) (c : Ctx)
    (hout : c.out = []) (hmic : f.keyInfo.mic = false)
    (hchecks : rxChecks c.sm src f = true) (hlen : f.keyDataLength.toNat ≤ f.keyData.length)
    (hencr : c.sm.conf.proto = .rsn ∧ f.keyInfo.encrKeyData = true)
    (hdec : DecryptsWith env c.tick c.sm f) :
    ∃ l, (rxKeyFrame cr env src f c).1.out = .useKek c.sm.ptk.kek :: l := by
  have hd := decrypt_of_decryptsWith cr (ver_of_rxChecks hchecks) hdec
  rw [hout, List.nil_append] at hd
  have hlen' : ¬ f.keyData.length < f.keyDataLength.toNat := by omega
  simp only [rxKeyFrame, hchecks, Bool.not_true, Bool.false_eq_true, if_false,
    rxVerify_of_not_mic hmic, if_neg hlen', rxDecrypt, if_pos hencr]
  cases hr : wpaSupplicantDecryptKeyData cr env f f.keyInfo.ver c with
  | mk c2 r =>
    rw [hr] at hd
    simp only at hd
    cases r with
    | none => exact ⟨[], hd⟩
    | some g =>
      obtain ⟨l, hl, -⟩ := rxDispatch_out cr env src g c2
      exact ⟨l, by rw [hl, hd]; rfl⟩

end

-- The KEK is used on authenticated frames only, except for the frames that
-- `UnauthenticatedDecryption` describes: `wpa_sm_rx_eapol` decrypts them without a look at the
-- MIC bit.
theorem kekAfterMic_iff (cr : Crypto) (env : Env) (sm : Sm) (src : Addr) (data : Octets) :
    (KekAfterMic (wpaSmRxEapol cr env src data ⟨sm, 0, []⟩).1.out ∧
      DropsUnauthenticated sm data (wpaSmRxEapol cr env src data ⟨sm, 0, []⟩).1) ↔
    ¬ UnauthenticatedDecryption env sm src data := by
  constructor
  · rintro ⟨hkek, -⟩ ⟨f, hf, halloc, hheader, hchecks, hmic, hlen, hrsn, hencr, hdec⟩
    obtain ⟨l, hl⟩ := rxKeyFrame_of_unauthenticated cr env src ⟨sm, 1, []⟩ rfl hmic hchecks hlen ⟨hrsn, hencr⟩ hdec
    have hout : (wpaSmRxEapol cr env src data ⟨sm, 0, []⟩).1.out = .useKek sm.ptk.kek :: l := by
      simp only [wpaSmRxEapol, hf, halloc, hheader, Bool.not_true, Bool.false_eq_true, if_false]
      exact hl
    obtain ⟨kck, g, hg⟩ := hkek [] _ l hout
    simp at hg
  · intro hno
    rw [wpaSmRxEapol]
    have hnil : KekAfterMic ([] : List Out) := kekAfterMic_of_no_kek (by simp)
    split
    · exact ⟨hnil, fun _ _ _ _ _ => ⟨rfl, rfl⟩⟩
    rename_i f hf
    simp only []
    split
    · exact ⟨hnil, fun _ _ _ _ _ => ⟨rfl, rfl⟩⟩
    rename_i halloc
    split
    · exact ⟨hnil, fun _ _ _ _ _ => ⟨rfl, rfl⟩⟩
    rename_i hheader
    simp only [Bool.not_eq_true', Bool.not_eq_false] at halloc hheader
    cases hmic : (rxFrame f).keyInfo.mic with
    | true =>
      refine ⟨rxKeyFrame_kekAfterMic rfl hmic, fun g hg _ _ hnomic => ?_⟩
      rw [received, hf, Option.map_some, Option.some.injEq] at hg
      rw [← hg, hmic] at hnomic
      simp at hnomic
    | false =>
      obtain ⟨h1, h2⟩ := rxKeyFrame_of_not_mic cr env src (⟨sm, 0, []⟩ : Ctx).ask rfl hmic
        (by
          rintro ⟨a1, a2, a3, a4, a5⟩
          exact hno ⟨f, hf, halloc, hheader, a1, hmic, a2, a3, a4, a5⟩)
      refine ⟨h1, fun g hg hrsn hencr _ => ?_⟩
      rw [received, hf, Option.map_some, Option.some.injEq] at hg
      rw [← hg] at hencr
      exact h2 hrsn hencr

def sampleUnsigned : Octets :=
  (sampleFrame (KeyInfo.typeHmacSha1Aes ||| KeyInfo.keyTypeBit ||| KeyInfo.ackBit |||
    KeyInfo.encrKeyDataBit) 9 (List.replicate 24 0)).toOctets

set_option maxRecDepth 100000 in
theorem kek_used_without_mic :
    Run .transparent (sampleRun [.rxEapol 1 (sampleMsg3 2)]).1
        (sampleRun [.rxEapol 1 (sampleMsg3 2)]).2 ∧
      ¬ KekAfterMic (wpaSmRxEapol .transparent .benign 1 sampleUnsigned
        ⟨(sampleRun [.rxEapol 1 (sampleMsg3 2)]).2, 0, []⟩).1.out := by
  refine ⟨run_reached _ _ _ _, fun h => ?_⟩
  have hhead : (wpaSmRxEapol .transparent .benign 1 sampleUnsigned
      ⟨(sampleRun [.rxEapol 1 (sampleMsg3 2)]).2, 0, []⟩).1.out.head? =
      some (.useKek (sampleRun [.rxEapol 1 (sampleMsg3 2)]).2.ptk.kek) := by
    rfl
  obtain ⟨l, hl⟩ := List.head?_eq_some_iff.mp hhead
  obtain ⟨kck, g, hg⟩ := h [] _ l hl
  simp at hg

end WpaSupplicant.Supplicant
