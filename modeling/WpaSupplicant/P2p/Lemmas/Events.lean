import WpaSupplicant.P2p.Lemmas

namespace WpaSupplicant.P2p

section ServiceDiscovery

variable {r : Request} {s : P2pData} {env : Env} {sa : Addr} {data : Octets} {rxFreq : ℤ}

theorem leaves_sendGasComebackReq {token : UInt8} :
    Leaves r s.toControl (sendGasComebackReq env s sa token rxFreq).toControl := by
  unfold sendGasComebackReq
  split
  · exact .refl _ _
  · exact .sendAction (.refl _ _)

theorem leaves_sdCompleted : Leaves r s.toControl (sdCompleted env s sa).toControl := by
  unfold sdCompleted
  refine .trans ?_ leaves_continueFind
  exact leaves_modifyDevice sa _

theorem leaves_rxGasComebackReq :
    Leaves r s.toControl (rxGasComebackReq env s sa data rxFreq).toControl := by
  unfold rxGasComebackReq
  split
  · split
    · exact .refl _ _
    split
    · exact .refl _ _
    · exact .sendAction (.refl _ _)
  · exact .refl _ _

theorem leaves_sdResponse {token : UInt8} {tlvs : Octets} :
    Leaves r s.toControl (sdResponse env s rxFreq sa token tlvs).toControl := by
  unfold sdResponse
  dsimp only
  split <;> split <;> first | exact .refl _ _ | exact .sendAction (.refl _ _)

theorem leaves_sdCb {success : Bool} : Leaves r s.toControl (sdCb env s success).toControl := by
  unfold sdCb
  dsimp only
  split
  · refine .trans ?_ leaves_continueFind
    exact .refl _ _
  split
  · exact (Leaves.refl r s.toControl).move (x := .sdDuringFind) (t := true) (.inr rfl)
  · refine .trans ?_ leaves_continueFind
    exact leaves_modifyDevice (s := s) _ _

end ServiceDiscovery

section Peers

variable {r : Request} {s : P2pData} {env : Env}

theorem leaves_addGroupClient {go iface : Addr} {freq : ℤ} {cli : ClientInfo} :
    Leaves r s.toControl (addGroupClient env go iface freq s cli).toControl := by
  unfold addGroupClient
  dsimp only
  split
  · exact leaves_modifyDevice _ _
  split
  · exact (leaves_createDevice).trans (leaves_modifyDevice _ _)
  · exact leaves_createDevice

theorem leaves_addInfoClients {go iface : Addr} {freq : ℤ} {info : PeerInfo} :
    Leaves r s.toControl (addInfoClients env s go iface freq info).toControl := by
  unfold addInfoClients
  split
  · unfold addGroupClients
    refine .trans ?_ (leaves_foldl (fun _ _ => leaves_addGroupClient) _ _)
    refine leaves_devices ?_
    rintro q - ⟨d, hd, hq⟩
    refine ⟨_, List.mem_map_of_mem hd, ?_⟩
    split <;> exact hq
  · exact .refl _ _

variable {addr : Addr}

theorem leaves_scheduleSd : Leaves r s.toControl (scheduleSd s addr).toControl := by
  unfold scheduleSd
  split
  · exact .refl _ _
  split
  · exact leaves_modifyDevice _ _
  · exact .refl _ _

theorem leaves_addDevice {freq : ℤ} {info : PeerInfo} :
    Leaves r s.toControl (addDevice env s addr freq info).1.toControl := by
  unfold addDevice
  split
  · exact .refl _ _
  split
  · exact .refl _ _
  dsimp only
  split
  · exact leaves_createDevice
  refine .trans ?_ leaves_scheduleSd
  refine .trans ?_ leaves_addInfoClients
  exact (leaves_createDevice).trans (leaves_modifyDevice _ _)

theorem leaves_expirePeers : Leaves r s.toControl (expirePeers env s).toControl := by
  refine leaves_foldl (fun u dev => ?_) _ _
  split
  · exact .refl _ _
  · exact leaves_removeDevice

theorem leaves_addDevFromProbeReq {ch : Option ChannelAttr} {capab : Option DevCapab} :
    Leaves r s.toControl (addDevFromProbeReq env s addr ch capab).toControl := by
  unfold addDevFromProbeReq
  split
  · exact leaves_modifyDevice _ _
  dsimp only
  split
  · exact (leaves_createDevice).trans (leaves_modifyDevice _ _)
  · exact leaves_createDevice

theorem leaves_flush : Leaves r s.toControl (flush s).toControl := by
  have h : Leaves r s.toControl { s.toControl with
      state := .idle, stateTimeout := false, startAfterScan := .nothing
      calls := .flush :: s.calls } :=
    ⟨⟨[.flush], rfl, .inl ⟨.flush, by simp, trivial⟩⟩, fun _ hstate => nomatch hstate⟩
  unfold flush
  refine .trans ?_ (leaves_foldl (fun _ _ => leaves_removeDevice) _ _)
  exact h

theorem leaves_unauthorize : Leaves r s.toControl (unauthorize s addr).toControl := by
  unfold unauthorize
  split
  · exact .refl _ _
  dsimp only
  have h : Leaves r s.toControl ((if s.goNegPeer = some addr then
      { s with goNegPeer := none } else s : P2pData).modifyDevice addr fun d =>
      { d with wpsMethod := .notReady, waitGoNegResponse := false,
               waitGoNegConfirm := false }).toControl := by
    refine .trans ?_ (leaves_modifyDevice _ _)
    split <;> exact .refl _ _
  split
  · split <;> exact h
  · exact h

theorem leaves_clearGoNeg : Leaves r s.toControl (clearGoNeg s).toControl :=
  (Leaves.refl r s.toControl).reset (by simp)

theorem leaves_wpsSuccessCb : Leaves r s.toControl (wpsSuccessCb s addr).toControl := by
  unfold wpsSuccessCb
  split
  · exact .refl _ _
  split
  · exact leaves_clearGoNeg
  · exact .refl _ _

theorem leaves_groupFormationFailed : Leaves r s.toControl (groupFormationFailed s).toControl := by
  unfold groupFormationFailed
  split
  · exact .refl _ _
  · exact leaves_clearGoNeg

end Peers

section Discovery

variable {r : Request} {s : P2pData} {env : Env} {sa : Addr} {rxFreq : ℤ}

theorem leaves_provDiscReq {peer : Addr} {methods : ℕ} {join : Bool} :
    Leaves r s.toControl (provDiscReq env s peer methods join).toControl := by
  unfold provDiscReq
  split
  · exact .refl _ _
  split
  · exact .refl _ _
  dsimp only
  split
  · exact leaves_modifyDevice _ _
  · refine .trans ?_ leaves_sendProvDiscReq
    split <;> exact leaves_modifyDevice (s := s) _ _

theorem leaves_learnPeer {known : Bool} {info : PeerInfo} :
    Leaves r s.toControl (learnPeer env s known sa rxFreq info).toControl := by
  unfold learnPeer
  split
  · exact .refl _ _
  · exact leaves_addDevice

variable {token : UInt8}

theorem leaves_processProvDiscReq {info : PeerInfo} :
    Leaves r s.toControl (processProvDiscReq env s sa token info rxFreq).toControl := by
  unfold processProvDiscReq
  dsimp only
  split
  · exact leaves_learnPeer
  split
  · exact leaves_learnPeer
  · exact .sendAction leaves_learnPeer

theorem leaves_processProvDiscResp : Leaves r s.toControl (processProvDiscResp s sa token).toControl := by
  unfold processProvDiscResp
  split
  · exact .refl _ _
  split
  · exact .refl _ _
  dsimp only
  split <;> split <;> first
    | exact .refl _ _
    | (refine .trans ?_ (leaves_modifyDevice _ _); split <;> exact .refl _ _)

theorem leaves_retryPd : Leaves r s.toControl (retryPd env s).toControl := by
  unfold retryPd
  split
  · exact .refl _ _
  split
  · exact .refl _ _
  · exact leaves_sendProvDiscReq

theorem leaves_provDiscCb {success : Bool} :
    Leaves r s.toControl (provDiscCb env s success).toControl := by
  unfold provDiscCb
  split
  · dsimp only
    split
    · refine .trans ?_ leaves_continueFind
      exact .refl _ _
    split
    · exact .setTimeout (.refl _ _)
    · exact .refl _ _
  · dsimp only
    split
    · exact .setTimeout (.setState (.refl _ _) (by simp))
    · exact .setTimeout (.refl _ _)

theorem leaves_timeoutProvDiscReq : Leaves r s.toControl (timeoutProvDiscReq env s).toControl := by
  unfold timeoutProvDiscReq
  dsimp only
  split
  · exact .refl _ _
  split
  · refine .trans ?_ leaves_retryPd
    exact .refl _ _
  · exact .refl _ _

theorem leaves_inviteSend {peer : Addr} :
    Leaves r s.toControl (inviteSend env s peer).1.toControl := by
  unfold inviteSend
  split
  · exact .refl _ _
  split
  · exact .refl _ _
  split
  · exact .refl _ _
  dsimp only
  split
  · exact .sendAction ((leaves_modifyDevice peer _).setState (x := .invite) (by simp))
  · exact .setTimeout
      (.sendAction ((leaves_modifyDevice peer _).setState (x := .invite) (by simp)))

theorem leaves_invite {peer : Addr} {activeGo : Bool} {forceFreq : ℕ} :
    Leaves r s.toControl (invite env s peer activeGo forceFreq).toControl := by
  unfold invite
  split
  · exact .refl _ _
  split
  · exact .refl _ _
  dsimp only
  split
  · exact leaves_modifyDevice _ _
  refine .trans ?_ leaves_inviteSend
  split
  · exact .stopFind (leaves_modifyDevice (s := s) peer _)
  · exact leaves_modifyDevice (s := s) peer _

theorem leaves_checkChannelList {l : Option Octets} :
    Leaves r s.toControl (checkChannelList s sa l).toControl := by
  unfold checkChannelList
  split
  · exact leaves_peerChannelsCheck
  · exact .refl _ _

theorem leaves_processInvitationReq {info : PeerInfo} {l : Option Octets} {status : UInt8} :
    Leaves r s.toControl (processInvitationReq env s sa info l status rxFreq).toControl := by
  have h : Leaves r s.toControl
      (checkChannelList (learnPeer env s (knownPeer s sa) sa rxFreq info) sa l).toControl :=
    (leaves_learnPeer).trans leaves_checkChannelList
  unfold processInvitationReq
  dsimp only
  split
  · exact h
  split
  · exact h
  · exact .sendAction h

theorem leaves_processInvitationResp :
    Leaves r s.toControl (processInvitationResp s sa).toControl := by
  unfold processInvitationResp
  split
  · exact (Leaves.refl r s.toControl).reset (by simp)
  · exact .refl _ _

theorem leaves_invitationReqCb : Leaves r s.toControl (invitationReqCb s).toControl := by
  unfold invitationReqCb
  split
  · exact .refl _ _
  · exact .setTimeout (.setState (.refl _ _) (by simp))

theorem leaves_sendDevDiscReq {dev : Device} :
    Leaves r s.toControl (sendDevDiscReq env s dev).toControl := by
  unfold sendDevDiscReq
  split
  · exact .refl _ _
  split
  · exact .refl _ _
  split
  · exact .refl _ _
  · exact .sendAction (leaves_modifyDevice (s := s) _ _)

theorem leaves_devDiscReqCb {success : Bool} :
    Leaves r s.toControl (devDiscReqCb s success).toControl := by
  unfold devDiscReqCb
  split
  · exact .refl _ _
  · exact .setTimeout (.setState (.refl _ _) (by simp))

theorem leaves_sendDevDiscResp {status : UInt8} :
    Leaves r s.toControl (sendDevDiscResp env s token sa rxFreq status).toControl := by
  unfold sendDevDiscResp
  split
  · exact .refl _ _
  · exact .sendAction (.refl _ _)

theorem leaves_processDevDiscReq {deviceId client : Option Addr} :
    Leaves r s.toControl (processDevDiscReq env s sa token deviceId client rxFreq).toControl := by
  unfold processDevDiscReq
  split
  · exact leaves_sendDevDiscResp
  split
  · exact leaves_log _
  · exact leaves_sendDevDiscResp

theorem leaves_processDevDiscResp {status : UInt8} :
    Leaves r s.toControl (processDevDiscResp s sa token status).toControl := by
  unfold processDevDiscResp
  split
  · split
    · exact .refl _ _
    split
    · exact .refl _ _
    split
    · split
      · exact .setTimeout (.setState (.refl _ _) (by simp))
      · exact .setTimeout (.refl _ _)
    · exact .setTimeout (.refl _ _)
  · exact .refl _ _

theorem leaves_goDiscReqCb {success : Bool} :
    Leaves r s.toControl (goDiscReqCb env s success).toControl := by
  unfold goDiscReqCb
  split
  · exact .refl _ _
  · exact leaves_sendDevDiscResp

theorem leaves_processGoDiscReq : Leaves r s.toControl (processGoDiscReq env s rxFreq).toControl := by
  unfold processGoDiscReq
  split
  · exact .refl _ _
  · exact leaves_log _

end Discovery

section Callbacks

variable {r : Request} {s : P2pData} {env : Env}

theorem leaves_countReqSent {peer : Addr} {success : Bool} :
    Leaves r s.toControl (countReqSent s peer success).toControl := by
  unfold countReqSent
  split
  · exact leaves_modifyDevice _ _
  · exact .refl _ _

theorem leaves_goNegReqCb {success : Bool} :
    Leaves r s.toControl (goNegReqCb env s success).toControl := by
  unfold goNegReqCb
  split
  · exact .refl _ _
  dsimp only
  split
  · exact .setState leaves_countReqSent (by simp)
  split
  · exact (leaves_countReqSent).trans leaves_sendDevDiscReq
  · exact .setTimeout (.setState leaves_countReqSent (by simp))

theorem leaves_goNegRespCb : Leaves r s.toControl (goNegRespCb s).toControl := by
  unfold goNegRespCb
  split
  · exact .refl _ _
  · exact .setTimeout (.setState (.refl _ _) (by simp))

theorem leaves_goNegRespFailureCb : Leaves r s.toControl (goNegRespFailureCb s).toControl := by
  unfold goNegRespFailureCb
  split
  · exact .refl _ _
  split
  · exact leaves_goNegFailed
  · exact .refl _ _

theorem leaves_goNegConfCb {result : SendActionResult} :
    Leaves r s.toControl (goNegConfCb s result).toControl := by
  unfold goNegConfCb
  split
  · exact leaves_goNegFailed
  split
  · exact .refl _ _
  · exact leaves_goComplete

theorem leaves_sendActionCb {result : SendActionResult} :
    Leaves r s.toControl (sendActionCb env s result).toControl := by
  unfold sendActionCb
  dsimp only
  refine .trans (b := ({ s with pendingAction := .noPendingAction } : P2pData).toControl) (.refl _ _) ?_
  split
  · exact .refl _ _
  · exact leaves_goNegReqCb
  · exact leaves_goNegRespCb
  · exact leaves_goNegRespFailureCb
  · exact leaves_goNegConfCb
  · exact leaves_sdCb
  · exact leaves_provDiscCb
  · exact leaves_invitationReqCb
  · exact .refl _ _
  · exact leaves_devDiscReqCb
  · exact .refl _ _
  · exact leaves_goDiscReqCb

theorem leaves_listenCb {freq : ℤ} : Leaves r s.toControl (listenCb s freq).toControl := by
  unfold listenCb
  split
  · exact .refl _ _
  split
  · exact .refl _ _
  dsimp only
  split
  · exact (Leaves.refl r s.toControl).setTimeout
  · exact .refl _ _

theorem leaves_retryConnect {peer : Device} :
    Leaves r s.toControl (retryConnect env s peer).toControl := by
  unfold retryConnect
  split
  · exact leaves_goNegFailed
  · exact .trans (.setState (.refl _ _) (by simp)) leaves_connectSend

theorem leaves_listenEnd : Leaves r s.toControl (listenEnd env s).toControl := by
  unfold listenEnd
  dsimp only
  refine .trans (b := ({ s with drvInListen := 0 } : P2pData).toControl) (.refl _ _) ?_
  split
  · exact .refl _ _
  split
  · exact leaves_retryConnect
  · exact leaves_search
  · exact .refl _ _

theorem leaves_timeoutConnect : Leaves r s.toControl (timeoutConnect env s).toControl :=
  .trans (.setState (.refl _ _) (by simp)) leaves_listenInFind

theorem leaves_timeoutConnectListen :
    Leaves r s.toControl (timeoutConnectListen env s).toControl := by
  unfold timeoutConnectListen
  split
  · exact .setState (.refl _ _) (by simp)
  split
  · exact .refl _ _
  · exact leaves_retryConnect

theorem leaves_timeoutWaitPeerIdle :
    Leaves r s.toControl (timeoutWaitPeerIdle env s).toControl := by
  unfold timeoutWaitPeerIdle
  split
  · exact .refl _ _
  dsimp only
  split
  · exact (leaves_modifyDevice _ _).trans leaves_goNegFailed
  · exact .trans (.setState (leaves_modifyDevice _ _) (by simp)) leaves_listenInFind

theorem leaves_timeoutInvite : Leaves r s.toControl (timeoutInvite env s).toControl := by
  unfold timeoutInvite
  dsimp only
  split
  · exact .setTimeout (.setState (.refl _ _) (by simp))
  · exact .trans (.setState (.refl _ _) (by simp)) leaves_listenInFind

theorem leaves_timeoutInviteListen :
    Leaves r s.toControl (timeoutInviteListen env s).toControl := by
  unfold timeoutInviteListen
  split
  · split
    · exact .trans (.setState (.refl _ _) (by simp)) leaves_inviteSend
    · exact .setState (.refl _ _) (by simp)
  · exact .setState (.refl _ _) (by simp)

theorem leaves_checkPdTimeout : Leaves r s.toControl (checkPdTimeout env s).toControl := by
  unfold checkPdTimeout
  split
  · exact leaves_timeoutProvDiscReq
  · exact .refl _ _

-- The timeout comes, and what waited for it goes on.
theorem leaves_stateTimeout : Leaves r s.toControl (stateTimeout env s).toControl := by
  have h : s.state ≠ .sdDuringFind → Leaves r s.toControl
      ({ s with stateTimeout := false, inListen := false } : P2pData).toControl :=
    fun hne => (Leaves.refl r s.toControl).move (x := s.state) (t := false) (.inl hne)
  unfold stateTimeout
  dsimp only
  split <;> rename_i hstate
  · exact (h (by simp [hstate])).trans leaves_checkPdTimeout
  · exact ((h (by simp [hstate])).trans leaves_checkPdTimeout).trans leaves_search
  · exact (h (by simp [hstate])).trans leaves_timeoutConnect
  · exact (h (by simp [hstate])).trans leaves_timeoutConnectListen
  · exact h (by simp [hstate])
  · split
    · exact ((h (by simp [hstate])).trans leaves_checkPdTimeout).setState (by simp)
    · exact (h (by simp [hstate])).trans leaves_checkPdTimeout
  · exact ((h (by simp [hstate])).setState (by simp)).setTimeout
  · exact (h (by simp [hstate])).trans leaves_timeoutWaitPeerIdle
  · -- the query is given up, and the find goes on
    refine .continueFind ?_
    unfold P2pData.modifyPtr
    dsimp only
    split
    · exact (leaves_modifyDevice (s := s) _ _).move (x := .search) (t := false) (.inl (by simp))
    · exact (Leaves.refl r s.toControl).move (x := .search) (t := false) (.inl (by simp))
  · exact h (by simp [hstate])
  · exact (h (by simp [hstate])).trans leaves_continueFind
  · exact (h (by simp [hstate])).trans leaves_timeoutInvite
  · exact (h (by simp [hstate])).trans leaves_timeoutInviteListen
  · exact h (by simp [hstate])

theorem leaves_goNegStart : Leaves r s.toControl (goNegStart env s).toControl := by
  unfold goNegStart
  dsimp only
  split
  · exact .refl _ _
  · refine .trans ?_ leaves_connectSend
    exact leaves_modifyDevice (s := s) _ _

theorem leaves_inviteStart : Leaves r s.toControl (inviteStart env s).toControl := by
  unfold inviteStart
  dsimp only
  split
  · exact .refl _ _
  · refine .trans ?_ leaves_inviteSend
    exact .refl _ _

theorem leaves_probeReqRx {addr : Addr} {discovery : Bool} {ch : Option ChannelAttr}
    {capab : Option DevCapab} :
    Leaves r s.toControl (probeReqRx env s addr discovery ch capab).toControl := by
  have h : Leaves r s.toControl
      (if discovery then addDevFromProbeReq env s addr ch capab else s).toControl := by
    split
    · exact leaves_addDevFromProbeReq
    · exact .refl _ _
  unfold probeReqRx
  dsimp only
  generalize (if discovery then addDevFromProbeReq env s addr ch capab else s) = u at h ⊢
  split
  · exact h
  · split <;> exact h

theorem leaves_scanResHandler {bssid : Addr} {freq : ℤ} {info : PeerInfo} :
    Leaves r s.toControl (scanResHandler env s bssid freq info).toControl := by
  unfold scanResHandler
  dsimp only
  split
  · exact (leaves_addDevice).trans leaves_connectSend
  · exact leaves_addDevice

theorem leaves_sendPresence {dst : Addr} {freq : ℤ} {frame : Frame} {buf : Buf} :
    Leaves r s.toControl (sendPresence env s dst freq frame buf).toControl := by
  unfold sendPresence
  split
  · exact .refl _ _
  · exact .sendAction (.refl _ _)

end Callbacks

end WpaSupplicant.P2p

namespace WpaSupplicant.P2p

-- The steps that call `p2p_listen`
def callsListen (s : P2pData) : Op → Bool
  | .listen _ => true
  | .extListenTimeout =>
    s.extListenTimeout && (s.state = .idle || (s.state = .listenOnly && s.extListenOnly))
  | _ => false

def completesScan (s : P2pData) : Op → Bool
  | .scanResHandled => true
  | .scanTimeout => s.scanTimeout
  | _ => false

def ListenFits (s : P2pData) (op : Op) : Prop :=
  callsListen s op = true → s.scanRunning = true → 0 ≤ s.listenFreq → s.startAfterScan = .listen

instance (s : P2pData) (op : Op) : Decidable (ListenFits s op) :=
  inferInstanceAs (Decidable (_ → _ → _ → _))

def Op.isGasResp : Op → Bool
  | .rxGasInitialResp .. => true
  | .rxGasComebackResp .. => true
  | _ => false

variable {r : Request} {s : P2pData} {env : Env} {step : Step}

theorem leaves_extListenTimeout (htimer : s.extListenTimeout = true)
    (h : ListenFits s .extListenTimeout) :
    Leaves r s.toControl (extListenTimeout env s).toControl := by
  have hidle : Leaves r s.toControl (s.setState .idle).toControl := .setState (.refl _ _) (by simp)
  unfold extListenTimeout
  dsimp only
  split
  · rename_i hstate
    have hcalls : callsListen s .extListenTimeout = true := by simp [callsListen, htimer, hstate]
    split
    · exact hidle
    split
    · refine .trans ?_ (leaves_listen (h hcalls))
      exact hidle
    · refine .trans ?_ (leaves_listen (h hcalls))
      exact hidle
  · split
    · exact .refl _ _
    rename_i hstate
    have hcalls : callsListen s .extListenTimeout = true := by
      simp only [ne_eq, not_not] at hstate
      simp [callsListen, htimer, hstate]
    split
    · refine .trans ?_ (leaves_listen (h hcalls))
      exact .refl _ _
    · refine .trans ?_ (leaves_listen (h hcalls))
      exact .refl _ _

theorem timed_extListenTimeout (h : SdTimed s.toControl) :
    SdTimed (extListenTimeout env s).toControl := by
  unfold extListenTimeout
  dsimp only
  split
  · split
    · exact fun hstate => nomatch hstate
    · split <;> (refine timed_listen ?_; exact fun hstate => nomatch hstate)
  · split
    · exact h
    · split <;> (refine timed_listen ?_; exact h)

theorem leaves_exec (hgas : step.op.isGasResp = false) (hscan : completesScan s step.op = false)
    (hlisten : ListenFits s step.op) : Leaves r s.toControl (exec s step).toControl := by
  unfold exec
  dsimp only
  split <;> rename_i hop
  · exact leaves_listen (hlisten (by rw [hop]; rfl))
  · exact leaves_find
  · exact .stopFind (.refl _ _)
  · exact leaves_connect
  · exact leaves_authorize
  · exact leaves_unauthorize
  · exact leaves_modifyDevice _ _
  · exact leaves_flush
  · exact leaves_provDiscReq
  · exact leaves_invite
  · exact .refl _ _
  · exact .refl _ _
  · exact leaves_sdResponse
  · unfold extListen
    split <;> exact .refl _ _
  · exact leaves_sendPresence
  · exact leaves_processGoNegReq
  · exact leaves_processGoNegResp
  · exact leaves_processGoNegConf
  · exact leaves_processInvitationReq
  · exact leaves_processInvitationResp
  · exact leaves_processProvDiscReq
  · exact leaves_processProvDiscResp
  · exact leaves_processDevDiscReq
  · exact leaves_processDevDiscResp
  · exact leaves_processGoDiscReq
  · exact leaves_sendPresence
  · simp [hop, Op.isGasResp] at hgas
  · exact leaves_rxGasComebackReq
  · simp [hop, Op.isGasResp] at hgas
  · exact leaves_probeReqRx
  · exact leaves_scanResHandler
  · simp [hop, completesScan] at hscan
  · exact leaves_otherScanCompleted
  · exact leaves_sendActionCb
  · exact leaves_listenCb
  · exact leaves_listenEnd
  · exact leaves_wpsSuccessCb
  · exact leaves_groupFormationFailed
  · exact .refl _ _
  · split <;> exact .refl _ _
  · split <;> exact .refl _ _
  · exact .refl _ _
  · exact .refl _ _
  · exact .refl _ _
  · exact .refl _ _
  · split
    · exact leaves_stateTimeout
    · exact .refl _ _
  · split
    · refine .stopFind ?_
      exact .refl _ _
    · exact .refl _ _
  · simp only [hop, completesScan] at hscan
    rw [if_neg (by simp [hscan])]
    exact .refl _ _
  · split
    · rename_i htimer
      exact leaves_extListenTimeout htimer (hop ▸ hlisten)
    · exact .refl _ _
  · split
    · exact leaves_goNegStart
    · exact .refl _ _
  · split
    · exact leaves_inviteStart
    · exact .refl _ _
  · exact leaves_expirePeers

-- A GAS response clears the timeout, and what is put off stays so.
theorem kept_clearTimeout : Kept r s.toControl s.clearTimeout.toControl := by
  refine ⟨[], rfl, .inr ?_⟩
  cases r <;> exact id

theorem kept_gasResp (hgas : step.op.isGasResp = true) : Kept r s.toControl (exec s step).toControl := by
  have hrefl : Kept r s.toControl s.toControl := (Leaves.refl r s.toControl).kept
  unfold exec
  dsimp only
  split <;> rename_i hop <;> first | (simp [hop, Op.isGasResp] at hgas; done) | skip
  · unfold rxGasInitialResp
    split
    · exact hrefl
    dsimp only
    split
    · exact kept_clearTimeout
    split
    · refine Kept.trans ?_ (leaves_sendGasComebackReq (r := r)).kept
      exact kept_clearTimeout
    split
    · exact kept_clearTimeout
    · exact (kept_clearTimeout).trans (leaves_sdCompleted (r := r)).kept
  · unfold rxGasComebackResp
    split
    · exact hrefl
    dsimp only
    split
    · exact kept_clearTimeout
    split
    · exact kept_clearTimeout
    split
    · exact kept_clearTimeout
    split
    · split
      · exact kept_clearTimeout
      · refine Kept.trans ?_ (leaves_sendGasComebackReq (r := r)).kept
        exact kept_clearTimeout
    · refine Kept.trans ?_ (leaves_sdCompleted (r := r)).kept
      exact kept_clearTimeout

-- Every step keeps what is put off, until the scan ends.
theorem kept_exec (hscan : completesScan s step.op = false) (hlisten : ListenFits s step.op) :
    Kept r s.toControl (exec s step).toControl := by
  by_cases hgas : step.op.isGasResp = true
  · exact kept_gasResp hgas
  · exact (leaves_exec (by simpa using hgas) hscan hlisten).kept

end WpaSupplicant.P2p
