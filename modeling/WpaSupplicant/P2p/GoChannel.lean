import Mathlib.Data.List.Nodup
import WpaSupplicant.P2p.Lemmas

namespace WpaSupplicant.P2p

section Intersection

variable {a b : Channels} {x y : RegClass} {regClass channel : UInt8}

-- A list as `struct p2p_channels` can hold it, which repeats no class and no channel of a class
structure Plain (a : Channels) : Prop where
  size : a.length ≤ maxRegClasses
  sizes : ∀ x ∈ a, x.channel.length ≤ maxRegClassChannels
  classes : (a.map RegClass.regClass).Nodup
  channels : ∀ x ∈ a, x.channel.Nodup

-- Where each element gives one at most, there are not more than before.
theorem length_flatMap_le {α β : Type} {f : α → List β} {l : List α} (hf : ∀ c, (f c).length ≤ 1) :
    (l.flatMap f).length ≤ l.length := by
  induction l with
  | nil => exact le_rfl
  | cons c l ih =>
    have hc := hf c
    rw [List.flatMap_cons, List.length_append, List.length_cons]
    omega

-- A key that is not repeated is found once at most.
theorem length_filter_key_le {α κ : Type} [DecidableEq κ] {key : α → κ} {l : List α}
    (hl : (l.map key).Nodup) (k : κ) : (l.filter fun c => k = key c).length ≤ 1 := by
  have hcount := List.nodup_iff_count_le_one.mp hl k
  rw [List.count_eq_countP, List.countP_map, List.countP_eq_length_filter] at hcount
  refine le_trans (le_of_eq ?_) hcount
  congr 2
  funext c
  rw [Bool.eq_iff_iff, decide_eq_true_eq, Function.comp, beq_iff_eq]
  exact eq_comm

-- Without repetitions nothing is cut off.
theorem regClassIntersect_channels (hx : x.channel.length ≤ maxRegClassChannels) (hy : y.channel.Nodup) :
    (regClassIntersect x y).channel = x.channel.flatMap fun c => y.channel.filter (c = ·) := by
  apply List.take_of_length_le
  refine (length_flatMap_le fun c => ?_).trans hx
  have hkey : (y.channel.map id).Nodup := by rwa [List.map_id]
  exact length_filter_key_le hkey c

theorem channelsIntersect_plain (ha : Plain a) (hb : Plain b) :
    channelsIntersect a b =
      (a.flatMap fun x => (b.filter (x.regClass = ·.regClass)).map (regClassIntersect x)).filter
        (·.channel ≠ []) := by
  apply List.take_of_length_le
  refine (List.length_filter_le _ _).trans ((length_flatMap_le fun x => ?_).trans ha.size)
  rw [List.length_map]
  exact length_filter_key_le hb.classes x.regClass

theorem channelsIntersect_of_includes (ha : Plain a) (hb : Plain b)
    (hina : channelsIncludes a regClass channel = true) (hinb : channelsIncludes b regClass channel = true) :
    channelsIncludes (channelsIntersect a b) regClass channel = true := by
  obtain ⟨x, hx, hxclass, hxchannel⟩ := channelsIncludes_iff.1 hina
  obtain ⟨y, hy, hyclass, hychannel⟩ := channelsIncludes_iff.1 hinb
  have hchannel : channel ∈ (regClassIntersect x y).channel := by
    rw [regClassIntersect_channels (ha.sizes x hx) (hb.channels y hy)]
    exact List.mem_flatMap.mpr ⟨channel, hxchannel, List.mem_filter.mpr ⟨hychannel, by simp⟩⟩
  refine channelsIncludes_iff.2 ⟨regClassIntersect x y, ?_, hxclass, hchannel⟩
  rw [channelsIntersect_plain ha hb]
  refine List.mem_filter.mpr ⟨List.mem_flatMap.mpr ⟨x, hx, ?_⟩, by simpa using List.ne_nil_of_mem hchannel⟩
  exact List.mem_map_of_mem (List.mem_filter.mpr ⟨hy, by simp [hxclass, hyclass]⟩)

theorem channelsIntersect_includes_iff (ha : Plain a) (hb : Plain b) :
    channelsIncludes (channelsIntersect a b) regClass channel = true ↔
      channelsIncludes a regClass channel = true ∧ channelsIncludes b regClass channel = true :=
  ⟨channelsIntersect_includes, fun h => channelsIntersect_of_includes ha hb h.1 h.2⟩

end Intersection

section Selection

variable {env : Env} {s s' : P2pData} {sa : Addr} {msg : Message} {rxFreq : ℤ} {l : Channels}

-- What an agreement on a channel is about: the own list, the list of the peer, and the operating channel
def terms (s : P2pData) (sa : Addr) : Channels × Option Channels × UInt8 × UInt8 :=
  (s.channels, (s.getDevice sa).map (·.channels), s.opRegClass, s.opChannel)

def Agreed (s : P2pData) (sa : Addr) : Prop :=
  channelsIncludes (channelsIntersect s.channels (((s.getDevice sa).map (·.channels)).getD []))
    s.opRegClass s.opChannel = true

theorem Agreed.of_terms (h : Agreed s sa) (hterms : terms s' sa = terms s sa) : Agreed s' sa := by
  obtain ⟨hown, hpeer, hclass, hchannel⟩ : _ ∧ _ ∧ _ ∧ _ := by simpa [terms] using hterms
  rw [Agreed, hown, hpeer, hclass, hchannel]
  exact h

theorem terms_modifyDevice {p : Addr} {f : Device → Device} (hf : ∀ d, (f d).channels = d.channels) :
    terms (s.modifyDevice p f) sa = terms s sa := by
  have hpeer : ((s.modifyDevice p f).getDevice sa).map (·.channels) = (s.getDevice sa).map (·.channels) := by
    rw [getDevice_modifyDevice, Option.map_map]
    congr 1
    funext d
    simp only [Function.comp]
    split
    · exact hf d
    · rfl
  rw [terms, terms, hpeer]
  rfl

theorem terms_modifyPtr {p : Option Addr} {f : Device → Device} (hf : ∀ d, (f d).channels = d.channels) :
    terms (s.modifyPtr p f) sa = terms s sa := by
  cases p with
  | none => rfl
  | some p => exact terms_modifyDevice hf

theorem terms_sendAction {freq : ℤ} {dst : Addr} {frame : Frame} :
    terms (sendAction env s freq dst frame).1 sa = terms s sa := by
  rw [sendAction]
  split
  · split <;> rfl
  · rfl

theorem reselectChannel_includes
    (hl : ∀ c rest, l = c :: rest → channelsIncludes l c.regClass (c.channel.headD 0) = true)
    (hne : l ≠ []) :
    channelsIncludes l (reselectChannel s l).opRegClass (reselectChannel s l).opChannel = true := by
  have hbest : ∀ freq c, bestInIntersection freq l = some c → channelsIncludes l c.1 c.2 = true := by
    intro freq c hc
    rw [bestInIntersection] at hc
    split at hc
    · exact (Option.filter_eq_some_iff.mp hc).2
    · cases hc
  have hband : ∀ (P : Prop) [Decidable P] freq c, (if P then bestInIntersection freq l else none) = some c →
      channelsIncludes l c.1 c.2 = true := by
    intro P _ freq c hc
    split at hc
    · exact hbest freq c hc
    · cases hc
  unfold reselectChannel
  dsimp only
  split
  · rename_i c hc
    exact hband _ _ c hc
  · rename_i c _ hc
    exact hband _ _ c hc
  cases l with
  | nil => exact absurd rfl hne
  | cons c rest => exact hl c rest rfl

theorem reselectChannel_channels : (reselectChannel s l).channels = s.channels := by
  unfold reselectChannel
  dsimp only
  split
  · rfl
  · rfl
  · split <;> rfl

theorem getDevice_eq_of_toControl (h : s'.toControl = s.toControl) : s'.getDevice sa = s.getDevice sa := by
  rw [P2pData.getDevice, P2pData.getDevice, h]

theorem setupGo_agreed (h : (setupGo env s sa).2 = true) : Agreed (setupGo env s sa).1 sa := by
  rw [Agreed, getDevice_eq_of_toControl toControl_setupGo]
  generalize hl : channelsIntersect s.channels (((s.getDevice sa).map (·.channels)).getD []) = l
  have hchannels : (setupGo env s sa).1.channels = s.channels := by
    unfold setupGo
    rw [hl]
    dsimp only
    split
    · rfl
    split
    · rfl
    · dsimp only
      split <;> split <;> first | rfl | exact reselectChannel_channels
  rw [hchannels, hl]
  unfold setupGo at h ⊢
  rw [hl] at h ⊢
  dsimp only at h ⊢
  cases l with
  | nil => cases h
  | cons c rest =>
    dsimp only at h ⊢
    by_cases hempty : c.channel = []
    · rw [if_pos hempty] at h
      cases h
    rw [if_neg hempty]
    dsimp only
    have hselected : ∀ t : P2pData, channelsIncludes (c :: rest) t.opRegClass t.opChannel = true →
        channelsIncludes (c :: rest)
          (if t.ssidSet then t else { t with ssid := env.ssid, ssidSet := true }).opRegClass
          (if t.ssidSet then t else { t with ssid := env.ssid, ssidSet := true }).opChannel = true := by
      intro t ht
      split <;> exact ht
    apply hselected
    split
    · rename_i hin
      exact hin
    apply reselectChannel_includes
    · rintro c' rest' heq
      cases heq
      rw [← hl]
      exact channelsIntersect_first hl
    · simp

theorem setupRole_agreed (h : (setupRole env s sa true).2 = true) : Agreed (setupRole env s sa true).1 sa := by
  rw [setupRole, if_pos rfl] at h ⊢
  exact setupGo_agreed h

end Selection

section Requests

variable {env : Env} {s s₁ : P2pData} {sa : Addr} {msg : Message} {rxFreq : ℤ} {dev : Device}

theorem terms_stopFindForFreq {freq : ℤ} : terms (stopFindForFreq s freq) sa = terms s sa := by
  unfold stopFindForFreq
  dsimp only
  split <;> rfl

theorem terms_negotiated {goState : GoState} {operFreq : ℤ} {token : UInt8} {intended : Addr} :
    terms (negotiated s sa goState operFreq token intended rxFreq) sa = terms s sa := by
  have hstop : ∀ t : P2pData, terms (((if t.state ≠ .idle then stopFindForFreq t rxFreq else t).setState
      .goNeg).clearTimeout) sa = terms t sa := by
    intro t
    split
    · exact terms_stopFindForFreq
    · rfl
  have hpeer : ∀ t : P2pData, terms
      { t.modifyDevice sa fun d => { d with dialogToken := token, intendedAddr := intended } with
        goNegPeer := some sa } sa = terms t sa := by
    intro t
    exact terms_modifyDevice (s := t) (p := sa) fun _ => rfl
  unfold negotiated
  rw [hpeer, hstop]
  exact terms_modifyDevice fun _ => rfl

theorem negotiated_goState {goState : GoState} {operFreq : ℤ} {token : UInt8} {intended : Addr} {x : GoState}
    (h : ((negotiated s sa goState operFreq token intended rxFreq).getDevice sa).map (·.goState) = some x) :
    x = goState := by
  have hstop : ∀ t : P2pData, (((if t.state ≠ .idle then stopFindForFreq t rxFreq else t).setState
      .goNeg).clearTimeout).getDevice sa = t.getDevice sa := by
    intro t
    split
    · unfold stopFindForFreq
      dsimp only
      split <;> rfl
    · rfl
  have hpeer : ∀ t : P2pData,
      P2pData.getDevice
        { t.modifyDevice sa fun d => { d with dialogToken := token, intendedAddr := intended } with
          goNegPeer := some sa } sa =
        (t.modifyDevice sa fun d => { d with dialogToken := token, intendedAddr := intended }).getDevice sa :=
    fun _ => rfl
  unfold negotiated at h
  rw [hpeer, getDevice_modifyDevice, hstop, getDevice_modifyDevice, Option.map_map, Option.map_map] at h
  obtain ⟨d, hd, rfl⟩ := Option.map_eq_some_iff.mp h
  simp [getDevice_addr hd]

theorem negotiateReq_agreed {op : ChannelAttr} {l : Octets} {intended : Addr}
    (h : negotiateReq env s dev msg op l intended rxFreq = (s₁, some scSuccess))
    (hgo : (s₁.getDevice dev.addr).map (·.goState) = some .localGo) : Agreed s₁ dev.addr := by
  unfold negotiateReq at h
  dsimp only at h
  split at h
  · cases h
  split at h
  · cases h
  split at h
  · cases h
  split at h
  · cases h
  rename_i go hdet
  split at h
  · cases h
  split at h
  · cases h
  split at h
  · cases h
  rename_i hsetup
  cases h
  have hgo' := negotiated_goState hgo
  cases go with
  | false => cases hgo'
  | true => exact (setupRole_agreed (by simpa using hsetup)).of_terms terms_negotiated

theorem terms_goNegFailed {peer : Option Device} {status : ℤ} :
    terms (goNegFailed s peer status) sa = terms s sa := by
  have hpeer : terms ((s.clearTimeout.setState .idle).modifyPtr s.goNegPeer fun d =>
      { d with wpsMethod := .notReady }) sa = terms s sa := terms_modifyPtr fun _ => rfl
  rw [← hpeer]
  rfl

theorem terms_respondGoNeg {p : Addr} {peer : Option Addr} {status : UInt8} :
    terms (respondGoNeg env s p peer msg status rxFreq) sa = terms s sa := by
  have hstatus : terms (s.modifyPtr peer fun d => { d with status := status }) sa = terms s sa :=
    terms_modifyPtr fun _ => rfl
  have hawait : ∀ t : P2pData, terms (awaitConfirm t p status) sa = terms t sa := by
    intro t
    unfold awaitConfirm
    split
    · exact terms_modifyDevice (s := t) (p := p) fun _ => rfl
    · rfl
  unfold respondGoNeg
  dsimp only
  split
  · exact hstatus
  split
  · exact hstatus
  · rw [terms_sendAction, hawait, hstatus]

theorem terms_confirmGoNeg {p : Addr} {status : UInt8} {go : Option Bool} :
    terms (confirmGoNeg env s p msg status go rxFreq) sa = terms s sa := by
  have hawait : terms (awaitConfirmTx s p status go) sa = terms s sa := by
    unfold awaitConfirmTx
    split
    · exact terms_modifyDevice (s := s) (p := p) fun _ => rfl
    · rfl
  unfold confirmGoNeg
  split
  · rfl
  dsimp only
  split
  · rfl
  split
  · rw [terms_sendAction, hawait]
  · rw [terms_goNegFailed, terms_sendAction, hawait]

theorem negotiateResp_agreed (h : negotiateResp env s dev msg = (s₁, scSuccess, some true)) :
    Agreed s₁ dev.addr := by
  unfold negotiateResp at h
  dsimp only at h
  split at h
  · split at h
    · cases h
    split at h
    · cases h
    split at h
    · cases h
    split at h
    · cases h
    split at h
    · cases h
    split at h
    · cases h
    split at h
    · cases h
    rename_i hsetup
    cases h
    have hagreed := setupRole_agreed (by simpa using hsetup)
    exact hagreed.of_terms (terms_modifyDevice fun _ => rfl)
  · cases h

end Requests

section Theorems

variable {env : Env} {s s₁ : P2pData} {sa : Addr} {msg : Message} {rxFreq : ℤ}

-- `p2p_process_go_neg_req` accepts a request: what it leaves, but for the response
def ReqAccepted (env : Env) (s : P2pData) (sa : Addr) (msg : Message) (rxFreq : ℤ) (s₁ : P2pData) : Prop :=
  ∃ dev op l intended, (knowPeer env s sa msg).getDevice sa = some dev ∧
    negotiateReq env (knowPeer env s sa msg) dev msg op l intended rxFreq = (s₁, some scSuccess) ∧
    processGoNegReq env s sa msg rxFreq = respondGoNeg env s₁ sa (some sa) msg scSuccess rxFreq

-- `p2p_process_go_neg_resp` accepts a response, with the role: what it leaves, but for the confirmation
def RespAccepted (env : Env) (s : P2pData) (sa : Addr) (msg : Message) (rxFreq : ℤ) (go : Option Bool)
    (s₁ : P2pData) : Prop :=
  ∃ dev, s.getDevice sa = some dev ∧
    negotiateResp env (s.modifyDevice sa fun d => { d with waitGoNegResponse := false }) dev msg =
      (s₁, scSuccess, go) ∧
    processGoNegResp env s sa msg rxFreq = confirmGoNeg env s₁ sa msg scSuccess go rxFreq

-- The intersection is exact, it does not depend on the order of the lists, and whoever becomes the GO has an
-- operating channel of it.
theorem channels_intersect_and_select :
    (∀ a b regClass channel, channelsIncludes (channelsIntersect a b) regClass channel = true →
        channelsIncludes a regClass channel = true ∧ channelsIncludes b regClass channel = true) ∧
      (∀ a b, Plain a → Plain b → ∀ regClass channel,
        (channelsIncludes (channelsIntersect a b) regClass channel = true ↔
          channelsIncludes a regClass channel = true ∧ channelsIncludes b regClass channel = true) ∧
        channelsIncludes (channelsIntersect a b) regClass channel =
          channelsIncludes (channelsIntersect b a) regClass channel) ∧
      (∀ env s sa msg rxFreq s₁, ReqAccepted env s sa msg rxFreq s₁ →
        (s₁.getDevice sa).map (·.goState) = some .localGo → Agreed (processGoNegReq env s sa msg rxFreq) sa) ∧
      ∀ env s sa msg rxFreq s₁, RespAccepted env s sa msg rxFreq (some true) s₁ →
        Agreed (processGoNegResp env s sa msg rxFreq) sa := by
  refine ⟨fun a b regClass channel => channelsIntersect_includes, ?_, ?_, ?_⟩
  · intro a b ha hb regClass channel
    refine ⟨channelsIntersect_includes_iff ha hb, ?_⟩
    rw [Bool.eq_iff_iff, channelsIntersect_includes_iff ha hb, channelsIntersect_includes_iff hb ha]
    exact and_comm
  · rintro env s sa msg rxFreq s₁ ⟨dev, op, l, intended, hdev, hneg, heq⟩ hgo
    obtain rfl := getDevice_addr hdev
    rw [heq]
    exact (negotiateReq_agreed hneg hgo).of_terms terms_respondGoNeg
  · rintro env s sa msg rxFreq s₁ ⟨dev, hdev, hneg, heq⟩
    obtain rfl := getDevice_addr hdev
    rw [heq]
    exact (negotiateResp_agreed hneg).of_terms terms_confirmGoNeg

def peerTwo : Device := { addr := 2, wpsMethod := .pinKeypad, dialogToken := 1, waitGoNegResponse := true }

def goDevice (goNegPeer : Option Addr) : P2pData where
  cfg :=
    { devAddr := 1, country := ⟨85, 83, 4⟩, regClass := 81, channel := 6, opRegClass := 81, opChannel := 6
      channels := [⟨81, [1, 6, 11]⟩] }
  devices := [peerTwo]
  goNegPeer := goNegPeer
  goIntent := 15
  opRegClass := 81
  opChannel := 6
  channels := [⟨81, [1, 6, 11]⟩]

def channelOne (status : Option UInt8) : Message where
  dialogToken := 1
  status := status
  goIntent := some 0
  listenChannel := some ⟨⟨85, 83, 4⟩, 81, 1⟩
  operatingChannel := some ⟨⟨85, 83, 4⟩, 81, 1⟩
  channelList := some [85, 83, 4, 81, 1, 1]
  intendedAddr := some 2
  deviceAddr := some 2
  devPasswordId := devPwRegistrarSpecified

theorem channels_intersect_and_select_one :
    ((processGoNegReq {} (goDevice none) 2 (channelOne none) 0).opChannel = 1 ∧
      Agreed (processGoNegReq {} (goDevice none) 2 (channelOne none) 0) 2) ∧
      (processGoNegResp {} (goDevice (some 2)) 2 (channelOne (some 0)) 2412).opChannel = 1 ∧
      Agreed (processGoNegResp {} (goDevice (some 2)) 2 (channelOne (some 0)) 2412) 2 := by
  obtain ⟨-, -, hreq, hresp⟩ := channels_intersect_and_select
  refine ⟨⟨by decide, hreq {} (goDevice none) 2 (channelOne none) 0 (negotiateReq {} (goDevice none) peerTwo
      (channelOne none) ⟨⟨85, 83, 4⟩, 81, 1⟩ [85, 83, 4, 81, 1, 1] 2 0).1
    ⟨peerTwo, ⟨⟨85, 83, 4⟩, 81, 1⟩, [85, 83, 4, 81, 1, 1], 2, by decide, by decide, by decide⟩ (by decide)⟩,
    by decide, ?_⟩
  exact hresp {} (goDevice (some 2)) 2 (channelOne (some 0)) 2412 (negotiateResp {} ((goDevice (some 2)).modifyDevice 2
    fun d => { d with waitGoNegResponse := false }) peerTwo (channelOne (some 0))).1
    ⟨peerTwo, by decide, by decide, by decide⟩

end Theorems

end WpaSupplicant.P2p
