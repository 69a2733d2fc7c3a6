import WpaSupplicant.Radius.Client
import WpaSupplicant.Radius.Verification

namespace WpaSupplicant.Radius

open Lib.Octets Lib.Buffer

-- The functions that look into the attributes read inside a message that was parsed, so that the default values
-- below are never taken.
theorem getVlanid_isSome {data : Octets} {msg : Msg} (h : Msg.parse data = some msg) : (Keys.getVlanid msg).isSome :=
  Keys.isSome_of_returns (Keys.returns_getVlanid (Keys.parsed_of_parse h))

theorem getMsKeys_isSome {c : Crypto} {data auth secret : Octets} {msg : Msg} (h : Msg.parse data = some msg) :
    (Keys.getMsKeys c msg auth secret).isSome :=
  Keys.isSome_of_returns (Keys.returns_getMsKeys (Keys.parsed_of_parse h))

-- The part of `struct eap_eapol_interface` between EAP and the authentication server
structure EapIf where
  eapKeyAvailable : Bool := false
  aaaEapReq : Bool := false
  aaaEapNoReq : Bool := false
  aaaSuccess : Bool := false
  aaaFail : Bool := false
  aaaEapReqData : Option Octets := none
  aaaEapKeyData : Option Octets := none
  aaaEapKeyAvailable : Bool := false
  aaaMethodTimeout : ℕ := 0
  deriving DecidableEq, Repr

-- The part of `struct eapol_state_machine` that messages of the server are applied to
structure EapolSm where
  radiusIdentifier : Option UInt8 := none
  lastRecvRadius : Option Msg := none
  reAuthPeriod : ℕ := 3600
  authFail : Bool := false
  eapTypeAuthsrv : UInt8 := 0
  identity : Option Octets := none
  radiusClass : List Octets := []
  eapIf : EapIf := {}
  deriving DecidableEq, Repr

-- `DYNAMIC_VLAN_*`
inductive DynamicVlan where
  | disabled
  | optional
  | required
  deriving DecidableEq, Repr

structure Sta where
  addr : Octets
  vlanId : ℤ := 0
  dynamicVlan : DynamicVlan := .disabled
  acctInterimInterval : ℕ := 0
  sm : EapolSm
  deriving DecidableEq, Repr

-- What `ieee802_1x_receive_auth` calls for a station
inductive Call where
  | bindVlan (addr : Octets) (oldVlanid : ℤ)
  | sessionTimeout (addr : Octets) (timeout : ℕ)
  | pmksaAdd (addr : Octets) (timeout : Option ℕ)
  | step (addr : Octets)
  deriving DecidableEq, Repr

-- The configuration that the handler reads, and the answer of `ap_sta_bind_vlan`
structure AuthConf where
  acctInterimInterval : ℕ := 0
  vlans : List ℤ := []
  acct : Bool := false
  bindVlan : Bool := true
  deriving DecidableEq, Repr

-- Whether `hostapd_get_vlan_id_ifname` finds an interface; -1 is the wildcard.
def AuthConf.hasVlan (conf : AuthConf) (id : ℤ) : Bool := conf.vlans.any fun v => v = id || v = -1

-- `ieee802_1x_decapsulate_radius`, after the message is stored
def EapolSm.decapsulateRadius (sm : EapolSm) (msg : Msg) : EapolSm :=
  match msg.getEap with
  | none => { sm with eapIf := { sm.eapIf with aaaEapNoReq := true } }
  | some eap =>
    if eap.length < 4 then { sm with eapIf := { sm.eapIf with aaaEapNoReq := true } }
    else
      { sm with
        eapTypeAuthsrv := if eap[0]? = some 1 then eap[4]?.getD sm.eapTypeAuthsrv else sm.eapTypeAuthsrv
        eapIf := { sm.eapIf with aaaEapReq := true, aaaEapReqData := some eap } }

-- `ieee802_1x_get_keys`
def EapolSm.getKeys (c : Crypto) (sm : EapolSm) (msg req : Msg) (secret : Octets) : EapolSm :=
  match (Keys.getMsKeys c msg req.authenticator secret).getD {} with
  | ⟨some send, some recv⟩ =>
    { sm with eapIf := { sm.eapIf with aaaEapKeyData := some (recv ++ send), aaaEapKeyAvailable := true } }
  | _ => sm

-- `ieee802_1x_store_radius_class`
def EapolSm.storeRadiusClass (conf : AuthConf) (sm : EapolSm) (msg : Msg) : EapolSm :=
  if !conf.acct then sm
  else
    { sm with radiusClass := (msg.attrs.filter fun a => a.type = attrClass && 1 ≤ a.data.length).map Attr.data }

-- `ieee802_1x_update_sta_identity`
def EapolSm.updateStaIdentity (sm : EapolSm) (msg : Msg) : EapolSm :=
  match msg.getAttr attrUserName with
  | none => sm
  | some identity => { sm with identity := some identity }

def Sta.accept (c : Crypto) (conf : AuthConf) (sta : Sta) (msg req : Msg) (secret : Octets) :
    Sta × List Call :=
  let timeout := msg.getAttrInt32 attrSessionTimeout
  let reauth := (msg.getAttrInt32 attrTerminationAction).getD 0 = 1
  let period := if reauth then timeout.getD sta.sm.reAuthPeriod else sta.sm.reAuthPeriod
  let sm := { sta.sm with reAuthPeriod := period, eapIf := { sta.sm.eapIf with aaaSuccess := true } }
  let sm := ((sm.getKeys c msg req secret).storeRadiusClass conf msg).updateStaIdentity msg
  let calls := if reauth then [] else timeout.toList.map (Call.sessionTimeout sta.addr)
  let pmksa := if sm.eapIf.eapKeyAvailable then [Call.pmksaAdd sta.addr timeout] else []
  ({ sta with sm := sm }, calls ++ pmksa)

-- The VLAN of an Access-Accept: whether one that is required is missing
def Sta.assignVlan (conf : AuthConf) (sta : Sta) (msg : Msg) : Sta × Bool :=
  match sta.dynamicVlan with
  | .disabled => ({ sta with vlanId := 0 }, false)
  | .optional => ({ sta with vlanId := (Keys.getVlanid msg).getD (-1) }, false)
  | .required =>
    let id := (Keys.getVlanid msg).getD (-1)
    ({ sta with vlanId := id }, !(0 < id && conf.hasVlan id))

-- The case of the code in `ieee802_1x_receive_auth`: the station, the calls, and whether an EAP message in
-- it is no request
def Sta.handleCode (c : Crypto) (conf : AuthConf) (sta : Sta) (msg req : Msg) (secret : Octets) :
    Sta × List Call × Bool :=
  if msg.code = codeAccessAccept then
    let r := sta.assignVlan conf msg
    let old := if sta.dynamicVlan = .disabled then 0 else sta.vlanId
    if r.2 then ({ r.1 with sm := { r.1.sm with authFail := true } }, [], false)
    else if !conf.bindVlan then (r.1, [.bindVlan sta.addr old], false)
    else
      let a := r.1.accept c conf msg req secret
      (a.1, .bindVlan sta.addr old :: a.2, true)
  else if msg.code = codeAccessReject then
    ({ sta with sm := { sta.sm with eapIf := { sta.sm.eapIf with aaaFail := true } } }, [], true)
  else
    let timeout := (msg.getAttrInt32 attrSessionTimeout).getD 0
    ({ sta with sm := { sta.sm with
        eapIf := { sta.sm.eapIf with aaaEapReq := true, aaaMethodTimeout := timeout } } }, [], false)

def Sta.takeInterim (conf : AuthConf) (sta : Sta) (msg : Msg) : Sta :=
  match msg.getAttrInt32 attrAcctInterimInterval with
  | none => sta
  | some v =>
    if conf.acctInterimInterval = 0 ∧ msg.code = codeAccessAccept ∧ 60 ≤ v then
      { sta with acctInterimInterval := v }
    else sta

-- The end of `ieee802_1x_receive_auth`, for a message that passed the checks
def Sta.apply (c : Crypto) (conf : AuthConf) (sta : Sta) (msg req : Msg) (secret : Octets) :
    Sta × List Call :=
  let sm := { sta.sm with radiusIdentifier := none, lastRecvRadius := some msg }
  let r := ({ sta with sm := sm }.takeInterim conf msg).handleCode c conf msg req secret
  let sm := r.1.sm.decapsulateRadius msg
  let sm := if r.2.2 then { sm with eapIf := { sm.eapIf with aaaEapReq := false } } else sm
  ({ r.1 with sm := sm }, r.2.1 ++ [.step sta.addr])

-- `RadiusRxResult`
inductive RxResult where
  | unknown
  | queued
  | invalidAuthenticator
  deriving DecidableEq, Repr

-- An Access-Reject that is let through without a verification
def Msg.exempt (msg : Msg) : Bool :=
  msg.code = codeAccessReject && (msg.getAttr attrMessageAuthenticator).isNone &&
    (msg.getAttr attrEapMessage).isNone

def Msg.isResponse (msg : Msg) : Bool :=
  msg.code = codeAccessAccept || msg.code = codeAccessReject || msg.code = codeAccessChallenge

-- `ieee802_1x_select_radius_identifier`
def Sta.waits (sta : Sta) (id : UInt8) : Bool := sta.sm.radiusIdentifier = some id

-- `ieee802_1x_receive_auth`
def receiveAuth (c : Crypto) (conf : AuthConf) (stas : List Sta) (msg req : Msg) (secret : Octets) :
    List Sta × List Call × RxResult :=
  let i := stas.findIdx fun sta => sta.waits msg.identifier
  match stas[i]? with
  | none => (stas, [], .unknown)
  | some sta =>
    if !msg.exempt && !msg.verify c secret req true then (stas, [], .invalidAuthenticator)
    else if !msg.isResponse then (stas, [], .unknown)
    else
      let r := sta.apply c conf msg req secret
      (stas.set i r.1, r.2, .queued)

structure Hapd where
  client : Client
  stas : List Sta
  calls : List Call := []
  deriving DecidableEq, Repr

-- `radius_client_receive` on the authentication socket, with its handler
def Hapd.receive (c : Crypto) (conf : AuthConf) (s : Hapd) (buf : Octets) : Hapd :=
  let r := s.client.receive true buf
  match r.2 with
  | none => { s with client := r.1 }
  | some (msg, req) =>
    let a := receiveAuth c conf s.stas msg req.msg req.sharedSecret
    { client := r.1, stas := a.1, calls := s.calls ++ a.2.1 }

def Client.Matched (s : Client) (buf : Octets) : Prop :=
  buf.length < 3000 ∧ ∃ msg, Msg.parse buf = some msg ∧
    ∃ e ∈ s.msgs, e.type = .auth ∧ e.msg.identifier = msg.identifier

-- A response with a correct Response Authenticator for the request with its identifier, and with a correct
-- Message-Authenticator where it has an EAP message
def Client.authentic (c : Crypto) (s : Client) (buf : Octets) : Bool :=
  match Msg.parse buf with
  | none => false
  | some msg =>
    match s.msgs.find? fun e => Client.Entry.answered e true msg.identifier with
    | none => false
    | some req =>
      msg.isResponse && msg.verify c req.sharedSecret req.msg (msg.getAttr attrEapMessage).isSome

-- A datagram that is let through without a verification, for a station that waits for it
def Hapd.Exempted (s : Hapd) (buf : Octets) : Prop :=
  ∃ msg, Msg.parse buf = some msg ∧ msg.exempt = true ∧ ∃ sta ∈ s.stas, sta.waits msg.identifier = true

section Forged

variable {c : Crypto} {conf : AuthConf} {s : Hapd} {buf : Octets}

theorem Client.receive_cases (s : Client) (buf : Octets) :
    (¬s.Matched buf ∧ s.receive true buf = (s, none)) ∨
      ∃ msg req, s.Matched buf ∧ Msg.parse buf = some msg ∧ req ∈ s.msgs ∧
        (s.msgs.find? fun e => Client.Entry.answered e true msg.identifier) = some req ∧
        s.receive true buf = (s.unlink fun e => e.ref = req.ref, some (msg, req)) := by
  unfold Client.receive
  by_cases hlen : 3000 ≤ buf.length
  · left
    refine ⟨fun hm => ?_, if_pos hlen⟩
    have hlt := hm.1
    omega
  rw [if_neg hlen]
  cases hparse : Msg.parse buf with
  | none =>
    left
    refine ⟨fun hm => ?_, rfl⟩
    obtain ⟨msg, hmsg, -⟩ := hm.2
    rw [hparse] at hmsg
    cases hmsg
  | some msg =>
    cases hfind : s.msgs.find? fun e => Client.Entry.answered e true msg.identifier with
    | none =>
      left
      refine ⟨fun hm => ?_, by simp [hfind]⟩
      obtain ⟨m, hm, e, he, htype, hid⟩ := hm.2
      rw [hparse] at hm
      cases hm
      have hnot := List.find?_eq_none.mp hfind e he
      simp [Client.Entry.answered, MsgType.isAuth, htype, hid] at hnot
    | some req =>
      right
      have hans := List.find?_some hfind
      simp only [Client.Entry.answered, MsgType.isAuth, beq_true, Bool.and_eq_true,
        decide_eq_true_eq] at hans
      have hmem := List.mem_of_find?_eq_some hfind
      exact ⟨msg, req, ⟨by omega, msg, hparse, req, hmem, hans.1, hans.2⟩, rfl, hmem, hfind,
        by simp [hfind]⟩

theorem Client.unlink_ne (s : Client) (req : Entry) (hreq : req ∈ s.msgs) :
    s.unlink (fun e => e.ref = req.ref) ≠ s := by
  intro heq
  have hmsgs := congrArg Client.msgs heq
  have hkept := List.filter_eq_self.mp hmsgs req hreq
  simp at hkept

theorem Msg.exempt_or_not_verify (msg req : Msg) (secret : Octets)
    (h : ¬(msg.isResponse = true ∧ msg.verify c secret req (msg.getAttr attrEapMessage).isSome = true)) :
    msg.exempt = true ∨ msg.verify c secret req true = false ∨ msg.isResponse = false := by
  cases hresp : msg.isResponse with
  | false => exact .inr (.inr rfl)
  | true =>
    right
    left
    refine Bool.eq_false_iff.mpr fun hv => h ⟨hresp, ?_⟩
    cases hsome : (msg.getAttr attrEapMessage).isSome with
    | true => exact hv
    | false =>
      unfold Msg.verify at hv ⊢
      rw [Bool.and_eq_true] at hv
      rw [hv.2]
      rfl

theorem Msg.exempt_isResponse {msg : Msg} (h : msg.exempt = true) : msg.isResponse = true := by
  simp only [Msg.exempt, Bool.and_eq_true, decide_eq_true_eq] at h
  simp [Msg.isResponse, h.1.1]

-- The identifier that a station waits for is cleared, and none of the later steps sets it.
section Identifier

variable (sm : EapolSm) (sta : Sta) (msg req : Msg) (secret : Octets)

@[simp]
theorem EapolSm.decapsulateRadius_radiusIdentifier :
    (sm.decapsulateRadius msg).radiusIdentifier = sm.radiusIdentifier := by
  unfold EapolSm.decapsulateRadius
  split
  · rfl
  · split <;> rfl

@[simp]
theorem EapolSm.getKeys_radiusIdentifier :
    (sm.getKeys c msg req secret).radiusIdentifier = sm.radiusIdentifier := by
  unfold EapolSm.getKeys
  split <;> rfl

@[simp]
theorem EapolSm.storeRadiusClass_radiusIdentifier :
    (sm.storeRadiusClass conf msg).radiusIdentifier = sm.radiusIdentifier := by
  unfold EapolSm.storeRadiusClass
  split <;> rfl

@[simp]
theorem EapolSm.updateStaIdentity_radiusIdentifier :
    (sm.updateStaIdentity msg).radiusIdentifier = sm.radiusIdentifier := by
  unfold EapolSm.updateStaIdentity
  split <;> rfl

@[simp]
theorem Sta.assignVlan_sm : (sta.assignVlan conf msg).1.sm = sta.sm := by
  unfold Sta.assignVlan
  split <;> rfl

@[simp]
theorem Sta.takeInterim_sm : (sta.takeInterim conf msg).sm = sta.sm := by
  unfold Sta.takeInterim
  split
  · rfl
  · split <;> rfl

@[simp]
theorem Sta.handleCode_radiusIdentifier :
    (sta.handleCode c conf msg req secret).1.sm.radiusIdentifier = sta.sm.radiusIdentifier := by
  unfold Sta.handleCode
  split
  · dsimp only
    split
    · simp
    · split <;> simp [Sta.accept]
  · split <;> rfl

theorem Sta.apply_waits (id : UInt8) : (sta.apply c conf msg req secret).1.waits id = false := by
  unfold Sta.apply Sta.waits
  dsimp only
  split <;> simp

end Identifier

section Handler

variable (stas : List Sta) (msg req : Msg) (secret : Octets)

-- A message that is let through is applied to the first station that waits for it.
theorem receiveAuth_exempt (hexempt : msg.exempt = true)
    (hwaits : ∃ sta ∈ stas, sta.waits msg.identifier = true) :
    (receiveAuth c conf stas msg req secret).1 ≠ stas := by
  have hlt := List.findIdx_lt_length_of_exists hwaits
  have hfound := List.findIdx_getElem (w := hlt)
  have hset : (receiveAuth c conf stas msg req secret).1 =
      stas.set (stas.findIdx fun sta => sta.waits msg.identifier)
        (stas[stas.findIdx fun sta => sta.waits msg.identifier].apply c conf msg req secret).1 := by
    simp [receiveAuth, List.getElem?_eq_getElem hlt, hexempt, Msg.exempt_isResponse hexempt]
  intro heq
  have hsame : (stas.set (stas.findIdx fun sta => sta.waits msg.identifier)
      (stas[stas.findIdx fun sta => sta.waits msg.identifier].apply c conf msg req secret).1)[
        stas.findIdx fun sta => sta.waits msg.identifier]? =
      stas[stas.findIdx fun sta => sta.waits msg.identifier]? := by
    rw [← hset, heq]
  rw [List.getElem?_set_self hlt, List.getElem?_eq_getElem hlt, Option.some.injEq] at hsame
  rw [← hsame, Sta.apply_waits] at hfound
  cases hfound

-- Any other message that is not authentic changes no station.
theorem receiveAuth_rejected
    (h : msg.verify c secret req true = false ∧ msg.exempt = false ∨ msg.isResponse = false ∨
      ¬∃ sta ∈ stas, sta.waits msg.identifier = true) :
    (receiveAuth c conf stas msg req secret).1 = stas ∧
      (receiveAuth c conf stas msg req secret).2.1 = [] := by
  unfold receiveAuth
  dsimp only
  split
  · exact ⟨rfl, rfl⟩
  rename_i sta hsta
  obtain ⟨hv, he⟩ | hr | hw := h
  · simp [hv, he]
  · split
    · exact ⟨rfl, rfl⟩
    · simp [hr]
  · have hlt := (List.getElem?_eq_some_iff.mp hsta).1
    refine absurd ?_ hw
    exact ⟨_, List.getElem_mem hlt, List.findIdx_getElem (w := hlt)⟩

end Handler

-- What an unauthenticated datagram changes: the request with its identifier is removed before the datagram is
-- verified, and an Access-Reject without the two attributes is not verified at all.
theorem unauthenticated_datagram_changes (c : Crypto) (conf : AuthConf) (s : Hapd) (buf : Octets)
    (hforged : s.client.authentic c buf = false) :
    (s.receive c conf buf = s ↔ ¬s.client.Matched buf) ∧
      ((s.receive c conf buf).stas = s.stas ∧ (s.receive c conf buf).calls = s.calls ↔
        ¬(s.client.Matched buf ∧ s.Exempted buf)) := by
  obtain ⟨hno, hrecv⟩ | ⟨msg, req, hm, hparse, hmem, hfind, hrecv⟩ := s.client.receive_cases buf
  · have hsame : s.receive c conf buf = s := by simp [Hapd.receive, hrecv]
    exact ⟨⟨fun _ => hno, fun _ => hsame⟩, ⟨fun _ hm => hno hm.1, fun _ => by rw [hsame]; exact ⟨rfl, rfl⟩⟩⟩
  have hres : s.receive c conf buf =
      { client := s.client.unlink fun e => e.ref = req.ref
        stas := (receiveAuth c conf s.stas msg req.msg req.sharedSecret).1
        calls := s.calls ++ (receiveAuth c conf s.stas msg req.msg req.sharedSecret).2.1 } := by
    simp [Hapd.receive, hrecv]
  refine ⟨⟨fun hsame => ?_, fun hno => absurd hm hno⟩, ⟨fun hsame hex => ?_, fun hno => ?_⟩⟩
  · rw [hres] at hsame
    exact absurd (congrArg Hapd.client hsame) (s.client.unlink_ne req hmem)
  · obtain ⟨m, hm', hexempt, hwaits⟩ := hex.2
    rw [hparse] at hm'
    cases hm'
    rw [hres] at hsame
    exact receiveAuth_exempt s.stas msg req.msg req.sharedSecret hexempt hwaits hsame.1
  · have hkinds := Msg.exempt_or_not_verify (c := c) msg req.msg req.sharedSecret fun hv => by
      simp [Client.authentic, hparse, hfind, hv.1, hv.2] at hforged
    have hrej : (receiveAuth c conf s.stas msg req.msg req.sharedSecret).1 = s.stas ∧
        (receiveAuth c conf s.stas msg req.msg req.sharedSecret).2.1 = [] :=
      receiveAuth_rejected s.stas msg req.msg req.sharedSecret ?_
    · rw [hres, hrej.1, hrej.2, List.append_nil]
      exact ⟨rfl, rfl⟩
    · cases hexempt : msg.exempt with
      | true => exact .inr (.inr fun hw => hno ⟨hm, msg, hparse, hexempt, hw⟩)
      | false =>
        rw [hexempt] at hkinds
        obtain hx | hv | hr := hkinds
        · cases hx
        · exact .inl ⟨hv, rfl⟩
        · exact .inr (.inl hr)

def pendingEntry : Entry :=
  ⟨0, [2, 0, 0, 0, 0, 1], ⟨[1, 7, 0, 20] ++ List.replicate 16 2, []⟩, .auth, 0, 3, 1, 6, [115]⟩

def pendingHapd : Hapd where
  client :=
    { auth := ⟨[⟨1, .inet, [115]⟩], some 0, some 4, none, some 4⟩
      acct := ⟨[], none, none, none, none⟩
      msgs := [pendingEntry]
      numMsgs := 1
      timers := [3] }
  stas := [{ addr := [2, 0, 0, 0, 0, 1], sm := { radiusIdentifier := some 7 } }]

def forgedAccept : Octets := [2, 7, 0, 20] ++ List.replicate 16 1

def forgedReject : Octets := [3, 7, 0, 20] ++ List.replicate 16 1

theorem forged_accept_changes_no_station :
    pendingHapd.client.authentic zeroCrypto forgedAccept = false ∧
      (pendingHapd.receive zeroCrypto {} forgedAccept).stas = pendingHapd.stas ∧
      (pendingHapd.receive zeroCrypto {} forgedAccept).calls = pendingHapd.calls := by
  have hforged : pendingHapd.client.authentic zeroCrypto forgedAccept = false := by decide
  refine ⟨hforged, (unauthenticated_datagram_changes zeroCrypto {} pendingHapd forgedAccept hforged).2.mpr ?_⟩
  rintro ⟨-, msg, hparse, hexempt, -⟩
  have hmsg : Msg.parse forgedAccept = some ⟨forgedAccept, []⟩ := by decide
  rw [hmsg, Option.some.injEq] at hparse
  subst hparse
  exact absurd hexempt (by decide)

theorem forged_reject_fails_station :
    pendingHapd.client.authentic zeroCrypto forgedReject = false ∧
      (pendingHapd.receive zeroCrypto {} forgedReject).client.msgs = [] ∧
      (pendingHapd.receive zeroCrypto {} forgedReject).stas.map (fun sta => sta.sm.eapIf.aaaFail) = [true] ∧
      (pendingHapd.receive zeroCrypto {} forgedReject).calls = [.step [2, 0, 0, 0, 0, 1]] := by
  decide

end Forged

end WpaSupplicant.Radius
