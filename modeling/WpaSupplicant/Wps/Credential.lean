import WpaSupplicant.Wps.Registrar

namespace WpaSupplicant.Wps

variable {attr : ParseAttr} {cred cred' : Credential}

def networkKeyOf (attr : ParseAttr) : Octets :=
  let key := attr.networkKey.getD []
  if (attr.authType.getD 0) &&& (authWpapsk ||| authWpa2psk) ≠ 0 ∧ 8 < key.length ∧ key.length < 64 ∧
      key.getLast? = some 0 then
    key.dropLast
  else key

structure TakenOver (attr : ParseAttr) (cred : Credential) : Prop where
  ssid : attr.ssid.map stripZeros = some cred.ssid
  key : cred.key = networkKeyOf attr

-- What is sent has room in `struct wps_credential`.
def HasRoom (attr : ParseAttr) : Prop :=
  (stripZeros (attr.ssid.getD [])).length ≤ 32 ∧ (attr.networkKey.getD []).length ≤ 64

theorem workaroundCredKey_key :
    (workaroundCredKey cred).key =
      if cred.authType &&& (authWpapsk ||| authWpa2psk) ≠ 0 ∧ 8 < cred.key.length ∧
          cred.key.length < 64 ∧ cred.key.getLast? = some 0 then cred.key.dropLast
      else cred.key := by
  rw [workaroundCredKey]
  split <;> rfl

theorem workaroundCredKey_ssid : (workaroundCredKey cred).ssid = cred.ssid := by
  rw [workaroundCredKey]
  split <;> rfl

theorem processCredNetworkKey_spec {key : Option Octets} (h : processCredNetworkKey cred key = some cred') :
    cred' = { cred with key := if (key.getD cred.key).length ≤ 64 then key.getD cred.key else cred.key } := by
  cases key with
  | none =>
    simp only [processCredNetworkKey] at h
    split at h
    · cases h
      simp
    · cases h
  | some k =>
    simp only [processCredNetworkKey, Option.some.injEq] at h
    rw [← h, Option.getD_some]
    split <;> rfl

theorem processSettings_spec (h : processSettings attr {} = some cred) :
    ∃ ssid, attr.ssid = some ssid ∧
      cred.ssid = (if (stripZeros ssid).length ≤ 32 then stripZeros ssid else []) ∧
      cred.key = (if (attr.networkKey.getD []).length ≤ 64 then networkKeyOf attr else []) := by
  rw [processSettings] at h
  split at h
  · rename_i cred₁ authType encrType hssid hauth hencr
    obtain ⟨ssid, hattr, rfl⟩ := Option.map_eq_some_iff.mp hssid
    dsimp only at h
    split at h
    · rename_i cred₂ addr hkey haddr
      cases h
      have hcred := processCredNetworkKey_spec hkey
      have hempty : ∀ c : Credential, c.key = [] →
          (if (stripZeros ssid).length ≤ 32 then { c with ssid := stripZeros ssid } else c).key = [] := by
        intro c hc
        split <;> exact hc
      rw [hempty {} rfl] at hcred
      refine ⟨ssid, hattr, ?_, ?_⟩
      · rw [workaroundCredKey_ssid, hcred]
        dsimp only
        split <;> rfl
      · rw [workaroundCredKey_key, hcred, networkKeyOf, hauth]
        dsimp only
        by_cases hroom : (attr.networkKey.getD []).length ≤ 64
        · rw [if_pos hroom, if_pos hroom]
          rfl
        · rw [if_neg hroom, if_neg hroom]
          simp
    · cases h
  · cases h

theorem takenOver_iff (h : processSettings attr {} = some cred) : TakenOver attr cred ↔ HasRoom attr := by
  obtain ⟨ssid, hattr, hssid, hkey⟩ := processSettings_spec h
  constructor
  · rintro ⟨hssid', hkey'⟩
    constructor
    · rw [hattr, Option.getD_some]
      by_contra hlong
      rw [hattr, Option.map_some, hssid, if_neg hlong] at hssid'
      rw [Option.some.inj hssid'] at hlong
      exact hlong (Nat.zero_le _)
    · by_contra hlong
      rw [hkey, if_neg hlong, networkKeyOf, if_neg fun hpass => by omega] at hkey'
      rw [← hkey'] at hlong
      exact hlong (Nat.zero_le _)
  · rintro ⟨hroom, hroom'⟩
    rw [hattr, Option.getD_some] at hroom
    constructor
    · rw [hattr, Option.map_some, hssid, if_pos hroom]
    · rw [hkey, if_pos hroom']

section Callbacks

def Accepted (attr : ParseAttr) (cred : Credential) : Prop :=
  processCred attr {} = some cred ∨ processApSettings attr = some cred

theorem Accepted.settings (h : Accepted attr cred) : processSettings attr {} = some cred := by
  rcases h with h | h
  · rw [processCred] at h
    split at h
    · cases h
    · exact h
  · exact h

def FromPeer (S : ParseAttr → Prop) (events : List Event) : Prop :=
  ∀ cred, .credCb cred ∈ events →
    ∃ attr cred', S attr ∧ Accepted attr cred' ∧ cred.ssid = cred'.ssid ∧ cred.key = cred'.key

variable {S S' : ParseAttr → Prop} {l l' : List Event}

theorem FromPeer.none (h : ∀ cred, .credCb cred ∉ l) : FromPeer S l :=
  fun cred hcred => absurd hcred (h cred)

theorem FromPeer.nil : FromPeer S [] := .none fun _ => List.not_mem_nil

theorem FromPeer.append (h : FromPeer S l) (h' : FromPeer S l') : FromPeer S (l ++ l') := by
  intro cred hcred
  rcases List.mem_append.mp hcred with hcred | hcred
  · exact h cred hcred
  · exact h' cred hcred

theorem FromPeer.mono (h : FromPeer S l) (hS : ∀ attr, S attr → S' attr) : FromPeer S' l := by
  intro cred hcred
  obtain ⟨attr, cred', hattr, hrest⟩ := h cred hcred
  exact ⟨attr, cred', hS attr hattr, hrest⟩

theorem FromPeer.single (hattr : S attr) (h : Accepted attr cred') (hssid : cred.ssid = cred'.ssid)
    (hkey : cred.key = cred'.key) : FromPeer S [.credCb cred] := by
  intro cred₁ hcred
  cases List.mem_singleton.mp hcred
  exact ⟨attr, cred', hattr, h, hssid, hkey⟩

variable (c : Crypto) {env : Env} {ctx : Context} {wps : WpsData} {msg : Octets}

def Settings (eattr attr : ParseAttr) : Prop := attr = eattr ∨ ∃ octets ∈ eattr.cred, parseMsg octets = some attr

-- What a message has encrypted
def Received (env : Env) (wps : WpsData) (msg : Octets) (attr : ParseAttr) : Prop :=
  ∃ mattr plain eattr, parseMsg msg = some mattr ∧ Enrollee.openSettings c env wps mattr = some (plain, eattr) ∧
    Settings eattr attr

namespace Enrollee

theorem fromPeer_processCredE (octets : Octets) :
    FromPeer (fun attr => parseMsg octets = some attr) (processCredE ctx wps octets).2.1 := by
  rw [processCredE]
  dsimp only
  cases hparse : (parseMsg octets).bind fun attr => processCred attr {} with
  | none => exact .nil
  | some cred =>
    obtain ⟨attr, hattr, hcred⟩ := Option.bind_eq_some_iff.mp hparse
    dsimp only
    split
    · exact .single hattr (Or.inl hcred) rfl rfl
    · split <;> exact .nil

theorem fromPeer_processCredsLoop (creds : List Octets) (ok : Bool) :
    FromPeer (fun attr => ∃ octets ∈ creds, parseMsg octets = some attr)
      (processCredsLoop ctx creds ok wps).2.1 := by
  induction creds generalizing ok wps with
  | nil => exact .nil
  | cons octets rest ih =>
    rw [processCredsLoop]
    have hcred : FromPeer (fun attr => ∃ o ∈ octets :: rest, parseMsg o = some attr)
        (processCredE ctx wps octets).2.1 :=
      (fromPeer_processCredE octets).mono fun attr hattr => ⟨octets, List.mem_cons_self, hattr⟩
    generalize processCredE ctx wps octets = r at hcred
    obtain ⟨wps', events, added⟩ := r
    cases added with
    | none => exact hcred
    | some added =>
      refine hcred.append ((ih (ok || added)).mono ?_)
      rintro attr ⟨o, ho, hattr⟩
      exact ⟨o, List.mem_cons_of_mem octets ho, hattr⟩

theorem fromPeer_processCreds (creds : List Octets) :
    FromPeer (fun attr => ∃ octets ∈ creds, parseMsg octets = some attr) (processCreds ctx wps creds).2.1 := by
  rw [processCreds]
  split
  · exact .nil
  · exact fromPeer_processCredsLoop creds false

theorem fromPeer_processApSettingsE : FromPeer (· = attr) (processApSettingsE ctx wps attr).2.1 := by
  rw [processApSettingsE]
  split
  · exact .nil
  cases hset : processApSettings attr with
  | none => exact .nil
  | some cred =>
    dsimp only
    split
    · refine .single rfl (Or.inr hset) ?_ ?_ <;> rw [upgradeTypes] <;> split <;> rfl
    · split <;> exact .nil

theorem fromPeer_processM8Settings (eattr : ParseAttr) :
    FromPeer (Settings eattr) (processM8Settings ctx wps eattr).2.1 := by
  rw [processM8Settings]
  have hcreds : FromPeer (Settings eattr) (processCreds ctx wps eattr.cred).2.1 :=
    (fromPeer_processCreds eattr.cred).mono fun _ => Or.inr
  generalize processCreds ctx wps eattr.cred = r at hcreds
  obtain ⟨wps', events, ok⟩ := r
  cases ok with
  | false => exact hcreds
  | true => exact hcreds.append ((fromPeer_processApSettingsE).mono fun _ => Or.inl)

theorem fromPeer_processM8 (hparse : parseMsg msg = some attr) :
    FromPeer (Received c env wps msg) (processM8 c env ctx wps msg attr).2 := by
  rw [processM8]
  split_ifs
  · exact .nil
  · exact .nil
  · exact .nil
  split
  · exact .nil
  · rename_i plain eattr hopen
    exact (fromPeer_processM8Settings eattr).mono fun _ hattr => ⟨attr, plain, eattr, hparse, hopen, hattr⟩

theorem fromPeer_failEvent (type : BitVec 8) : FromPeer S (failEvent wps type) := by
  rw [failEvent]
  split
  · exact .none (by simp)
  · exact .nil

theorem fromPeer_processM4 : FromPeer S (processM4 c env wps msg attr).2 := by
  have hsnonce : ∀ w n, FromPeer S (processRSnonce1 c w n).2.1 := by
    intro w n
    unfold processRSnonce1
    split
    · exact .nil
    split
    · exact .nil
    · exact .none (by simp)
  unfold processM4
  split
  · exact .nil
  split
  · exact .nil
  split
  · exact .nil
  dsimp only
  split
  · exact .nil
  split
  · exact .nil
  · exact hsnonce _ _

theorem fromPeer_processM6 : FromPeer S (processM6 c env ctx wps msg attr).2 := by
  have hsnonce : ∀ w n, FromPeer S (processRSnonce2 c w n).2.1 := by
    intro w n
    unfold processRSnonce2
    split
    · exact .nil
    split
    · exact .nil
    · exact .none (by simp)
  unfold processM6
  split
  · exact .nil
  split
  · exact .nil
  split
  · exact .nil
  dsimp only
  split
  · refine (hsnonce _ _).append ?_
    split
    · exact .none (by simp)
    · exact .nil
  · exact hsnonce _ _

theorem fromPeer_processWscMsg :
    FromPeer (Received c env wps msg) (processWscMsg c env ctx wps msg).2.2 := by
  have hdispatch : ∀ attr type r, parseMsg msg = some attr → dispatch c env ctx wps msg attr type = some r →
      FromPeer (Received c env wps msg) r.2 := by
    intro attr type r hparse hr
    rw [dispatch] at hr
    split_ifs at hr <;> cases hr
    · exact .nil
    · rw [processM2d]
      split
      · exact .nil
      · exact .none (by simp)
    · exact (fromPeer_processM4 c).append (fromPeer_failEvent m4)
    · exact (fromPeer_processM6 c).append (fromPeer_failEvent m6)
    · exact (fromPeer_processM8 c hparse).append (fromPeer_failEvent m8)
  rw [processWscMsg]
  split
  · exact .nil
  rename_i hparse
  split
  · exact .nil
  split
  · exact .nil
  split
  · exact .nil
  · rename_i hr
    exact hdispatch _ _ _ hparse hr

theorem fromPeer_processMsg (opCode : OpCode) :
    FromPeer (Received c env wps msg) (processMsg c env ctx wps opCode msg).2.2 := by
  have hack : FromPeer (Received c env wps msg) (processWscAck ctx wps msg).2.2 := by
    rw [processWscAck]
    split
    · exact .nil
    split
    · exact .none (by simp)
    · exact .nil
  have hnack : FromPeer (Received c env wps msg) (processWscNack wps msg).2.2 := by
    rw [processWscNack]
    split
    · exact .nil
    · rw [nackEvent]
      split <;> exact .none (by simp)
  rw [processMsg]
  split
  · exact fromPeer_processWscMsg c
  · exact fromPeer_processWscMsg c
  · exact hack
  · exact hnack
  · exact .nil

end Enrollee

namespace Registrar

theorem fromPeer_processApSettingsR : FromPeer (· = attr) (processApSettingsR env ctx wps attr).2.1 := by
  rw [processApSettingsR]
  split
  · exact .nil
  cases hset : processApSettings attr with
  | none => exact .nil
  | some cred =>
    dsimp only
    split
    · exact .nil
    split
    · exact .none (by simp)
    split
    · exact .none (by simp)
    · exact (FromPeer.none (by simp)).append (l := [.pinCompleted])
        (.single rfl (Or.inr hset) rfl rfl)

theorem fromPeer_processM7 (hparse : parseMsg msg = some attr) :
    FromPeer (Received c env wps msg) (processM7 c env ctx wps msg attr).2 := by
  have hsnonce : ∀ n, FromPeer (Received c env wps msg) (processESnonce2 c wps n).2.1 := by
    intro n
    unfold processESnonce2
    split
    · exact .nil
    · split <;> exact .none (by simp)
  rw [processM7]
  split
  · exact .nil
  split
  · exact .nil
  rename_i plain eattr hopen
  dsimp only
  rw [processM7Settings]
  have hn := hsnonce eattr.eSnonce2
  generalize processESnonce2 c wps eattr.eSnonce2 = r at hn
  obtain ⟨wps', events, ok⟩ := r
  cases ok with
  | false => exact hn
  | true =>
    refine hn.append ((fromPeer_processApSettingsR).mono ?_)
    rintro attr' rfl
    exact ⟨attr, plain, attr', hparse, hopen, Or.inl rfl⟩

theorem fromPeer_processM5 : FromPeer S (processM5 c env ctx wps msg attr).2 := by
  have hsnonce : ∀ n, FromPeer S (processESnonce1 c wps n).2.1 := by
    intro n
    unfold processESnonce1
    split
    · exact .nil
    split
    · exact .nil
    · exact .none (by simp)
  rw [processM5]
  split
  · exact .nil
  split
  · exact .nil
  · exact hsnonce _

theorem fromPeer_processM1 : FromPeer S (processM1 env ctx wps attr).2.2 := by
  rw [processM1]
  split
  · exact .nil
  split
  · exact .nil
  split
  · exact .nil
  split
  · exact .none (by simp)
  · exact .nil

theorem fromPeer_processWscMsg :
    FromPeer (Received c env wps msg) (processWscMsg c env ctx wps msg).2.2 := by
  have hdispatch : ∀ attr type, parseMsg msg = some attr →
      FromPeer (Received c env wps msg) (dispatch c env ctx wps msg attr type).2.2 := by
    intro attr type hparse
    rw [dispatch]
    split_ifs
    · exact fromPeer_processM1
    · exact Enrollee.fromPeer_failEvent m3
    · exact (fromPeer_processM5 c).append (Enrollee.fromPeer_failEvent m5)
    · exact (fromPeer_processM7 c hparse).append (Enrollee.fromPeer_failEvent m7)
    · exact .nil
  rw [processWscMsg]
  split
  · exact .nil
  rename_i attr hparse
  split
  · exact .nil
  rename_i type htype
  split
  · exact .nil
  have hd := hdispatch attr type hparse
  generalize dispatch c env ctx wps msg attr type = r at hd
  obtain ⟨wps', res, events⟩ := r
  cases res <;> exact hd

end Registrar

end Callbacks

section Theorems

variable (c : Crypto) (env : Env) (ctx : Context) (wps : WpsData) (msg : Octets)

-- What is accepted is taken over exactly if it has room, and so is what a message brings to `cred_cb`.
theorem credential_taken_over :
    (∀ attr cred, Accepted attr cred → (TakenOver attr cred ↔ HasRoom attr)) ∧
      ∀ opCode, (wps.registrar = true → opCode = .msg) → ∀ cred,
        .credCb cred ∈ (processMsg c env ctx wps opCode msg).2.2 →
          ∃ attr cred', Received c env wps msg attr ∧ Accepted attr cred' ∧
            cred.ssid = cred'.ssid ∧ cred.key = cred'.key ∧ (TakenOver attr cred ↔ HasRoom attr) := by
  refine ⟨fun attr cred h => takenOver_iff h.settings, ?_⟩
  intro opCode hop cred hcred
  have hpeer : FromPeer (Received c env wps msg) (processMsg c env ctx wps opCode msg).2.2 := by
    rw [processMsg]
    split
    · rename_i hreg
      rw [hop hreg]
      exact Registrar.fromPeer_processWscMsg c
    · exact Enrollee.fromPeer_processMsg c opCode
  obtain ⟨attr, cred', hrec, hacc, hssid, hkey⟩ := hpeer cred hcred
  refine ⟨attr, cred', hrec, hacc, hssid, hkey, ?_⟩
  rw [← takenOver_iff hacc.settings]
  constructor
  · rintro ⟨hs, hk⟩
    exact ⟨by rw [hs, hssid], by rw [← hkey, hk]⟩
  · rintro ⟨hs, hk⟩
    exact ⟨by rw [hs, hssid], by rw [hkey, hk]⟩

def longSsid : Octets :=
  encode [(attrNetworkIndex, [1]), (attrSsid, List.replicate 33 97), (attrAuthType, [0, 0x20]),
    (attrEncrType, [0, 8]), (attrNetworkKey, List.replicate 8 98), (attrMacAddr, List.replicate 6 2)]

-- It comes to `cred_cb` with an empty SSID.
theorem long_ssid_emptied :
    (Enrollee.processCredE {} { registrar := false, state := .recvM8 } longSsid).2.1 =
        [.credCb { authType := 0x20, encrType := 8, key := List.replicate 8 98, macAddr := 0x020202020202 }] ∧
      ((parseMsg longSsid).bind ParseAttr.ssid).map stripZeros = some (List.replicate 33 97) := by
  decide

end Theorems

end WpaSupplicant.Wps
