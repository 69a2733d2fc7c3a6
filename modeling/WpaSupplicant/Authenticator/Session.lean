import WpaSupplicant.Authenticator.Events

namespace WpaSupplicant.Authenticator

open Lib.Octets KeyData

def execAll (cr : Crypto) (env : Env) (fuel : ℕ) :
    List Event → List (Auth × Event × Auth) × Auth → Option (List (Auth × Event × Auth) × Auth)
  | [], r => some r
  | e :: es, (tr, W) =>
    match exec cr env fuel W e with
    | none => none
    | some W' => execAll cr env fuel es ((W, e, W') :: tr, W')

theorem run_execAll {cr : Crypto} {env : Env} {fuel : ℕ} (es : List Event)
    {r r' : List (Auth × Event × Auth) × Auth} (h : Run cr r.1 r.2)
    (hs : execAll cr env fuel es r = some r') : Run cr r'.1 r'.2 := by
  induction es generalizing r with
  | nil => exact Option.some.inj hs ▸ h
  | cons e es ih =>
    simp only [execAll] at hs
    split at hs
    · simp at hs
    · rename_i W' hW'
      exact ih (h.step ⟨env, fuel, hW'⟩) hs

theorem execAll_events {cr : Crypto} {env : Env} {fuel : ℕ} (es : List Event)
    {r r' : List (Auth × Event × Auth) × Auth} (hs : execAll cr env fuel es r = some r') :
    ∀ x ∈ r'.1, x.2.1 ∈ es ∨ x ∈ r.1 := by
  induction es generalizing r with
  | nil =>
    obtain rfl := Option.some.inj hs
    exact fun x hx => .inr hx
  | cons e es ih =>
    simp only [execAll] at hs
    split at hs
    · simp at hs
    rename_i W' hW'
    intro x hx
    rcases ih hs x hx with h | h
    · exact .inl (List.mem_cons_of_mem _ h)
    rcases List.mem_cons.mp h with rfl | h
    · exact .inl List.mem_cons_self
    · exact .inr h

theorem execAll_steps {cr : Crypto} {env : Env} {fuel : ℕ} (es : List Event)
    {r r' : List (Auth × Event × Auth) × Auth} (hs : execAll cr env fuel es r = some r') :
    ∀ x ∈ r'.1, x ∈ r.1 ∨ exec cr env fuel x.1 x.2.1 = some x.2.2 := by
  induction es generalizing r with
  | nil =>
    obtain rfl := Option.some.inj hs
    exact fun x hx => .inl hx
  | cons e es ih =>
    simp only [execAll] at hs
    split at hs
    · cases hs
    rename_i W' hW'
    intro x hx
    rcases ih hs x hx with h | h
    · rcases List.mem_cons.mp h with rfl | h
      · exact .inr hW'
      · exact .inl h
    · exact .inr h

-- A session to evaluate: an access point with address 1 and WPA2-PSK, and a station with address
-- 2. Where a run gets stuck, the session stays where it is.
def sampleConf : WpaAuthConfig where
  protos := [.rsn]
  wpaKeyMgmt := [.psk]
  wpaPairwise := []
  wpaGroup := .ccmp
  rsnPairwise := [.ccmp]
  wpaPtkRekey := true

def sampleInit : Option (List (Auth × Event × Auth) × Auth) :=
  (wpaInit .transparent .benign sampleConf 1).map fun W => ([], W)

def sampleRun (es : List Event) : Option (List (Auth × Event × Auth) × Auth) :=
  sampleInit.bind (execAll .transparent .benign 20 es)

variable {r : List (Auth × Event × Auth) × Auth}

theorem run_sampleRun {es : List Event} (h : sampleRun es = some r) : Run .transparent r.1 r.2 := by
  obtain ⟨r0, h0, hs⟩ := Option.bind_eq_some_iff.mp h
  obtain ⟨W, hW, rfl⟩ := Option.map_eq_some_iff.mp h0
  exact run_execAll es (.init ⟨_, _, _, hW⟩) hs

theorem sampleRun_events {es : List Event} (h : sampleRun es = some r) : ∀ x ∈ r.1, x.2.1 ∈ es := by
  obtain ⟨r0, h0, hs⟩ := Option.bind_eq_some_iff.mp h
  obtain ⟨W, hW, rfl⟩ := Option.map_eq_some_iff.mp h0
  intro x hx
  rcases execAll_events es hs x hx with hx | hx
  · exact hx
  · simp at hx

theorem sampleRun_steps {es : List Event} (h : sampleRun es = some r) :
    ∀ x ∈ r.1, exec .transparent .benign 20 x.1 x.2.1 = some x.2.2 := by
  obtain ⟨r0, h0, hs⟩ := Option.bind_eq_some_iff.mp h
  obtain ⟨W, hW, rfl⟩ := Option.map_eq_some_iff.mp h0
  intro x hx
  rcases execAll_steps es hs x hx with hx | hx
  · cases hx
  · exact hx

def sampleAssoc : List Event :=
  [.staInit 0 2 0,
    .validateIe 0 ⟨[48, 0], .rsn, .ccmp, .psk, false, none⟩,
    .assocCb 0 [] .associated]

def sampleFrame (ptk : Ptk) (keyInfo : KeyInfo) (ctr : ReplayCounter) (nonce : Nonce)
    (keyData : Octets) : EapolKey :=
  let f : EapolKey := {
    hdrVersion := 2
    hdrType := ieee8021xTypeEapolKey
    hdrLength := BitVec.ofNat 16 (EapolKey.keySize + keyData.length)
    type := eapolKeyTypeRsn
    keyInfo := keyInfo
    keyLength := 0
    replayCounter := ctr
    keyNonce := nonce
    keyIv := 0
    keyRsc := 0
    keyId := 0
    keyMic := 0
    keyDataLength := BitVec.ofNat 16 keyData.length
    keyData := keyData }
  { f with keyMic := (Crypto.transparent.wpaEapolKeyMic ptk.kck keyInfo.ver f.toOctets).getD 0 }

def sampleAnonce : Nonce := 0x0900000000000000000000000000000000000000000000000000000000000002

def samplePtk : Ptk :=
  Ptk.write .zero (Crypto.transparent.wpaPmkToPtk (List.replicate 32 1) "Pairwise key expansion" 1 2
    sampleAnonce 7 48 false) 48

def sampleMsg2 (ctr : ReplayCounter) : Event :=
  .receive 0 (sampleFrame samplePtk (KeyInfo.typeHmacSha1Aes ||| KeyInfo.keyTypeBit |||
    KeyInfo.micBit) ctr 7 [48, 0]).toOctets

def sampleMsg4 (ctr : ReplayCounter) : Event :=
  .receive 0 (sampleFrame samplePtk (KeyInfo.typeHmacSha1Aes ||| KeyInfo.keyTypeBit |||
    KeyInfo.micBit ||| KeyInfo.secureBit) ctr 0 []).toOctets

end WpaSupplicant.Authenticator
