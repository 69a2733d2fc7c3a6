import WpaSupplicant.P2p.Events

namespace WpaSupplicant.P2p

section Devices

variable {s : P2pData} {a b : Addr} {f : Device → Device}

theorem getDevice_addr {d : Device} (h : s.getDevice a = some d) : d.addr = a := by
  simpa using List.find?_some h

theorem getDevice_modifyDevice (s : P2pData) (a b : Addr) (f : Device → Device) :
    (s.modifyDevice b f).getDevice a =
      (s.getDevice a).map fun d => if d.addr = b then { f d with addr := d.addr } else d := by
  simp only [P2pData.getDevice, P2pData.modifyDevice, List.find?_map]
  congr 2
  funext d
  simp only [Function.comp]
  split <;> rfl

theorem isSome_getDevice_iff : (s.getDevice a).isSome = true ↔ ∃ d ∈ s.devices, d.addr = a := by
  simp [P2pData.getDevice, List.find?_isSome]

end Devices

-- A request that was put off until the end of a scan
inductive Request where
  | connect (peer : Addr)
  | listen
  deriving DecidableEq, Repr

def Control.Has (c : Control) (a : Addr) : Prop := ∃ d ∈ c.devices, d.addr = a

def Pending (r : Request) (c : Control) : Prop :=
  c.scanRunning = true ∧
    match r with
    | .connect peer => c.startAfterScan = .connect ∧ c.afterScanPeer = peer ∧ c.Has peer
    | .listen => c.startAfterScan = .listen

def Cancels (r : Request) : Call → Prop
  | .find => True
  | .stopFind => True
  | .flush => True
  | .connect _ => True
  | .deviceFree addr => r = .connect addr
  | _ => False

-- While the module waits for the answer to a query, its timeout is registered.
def SdTimed (c : Control) : Prop := c.state = .sdDuringFind → c.stateTimeout = true

-- A request that is put off stays so, unless it is taken back on the way.
def Kept (r : Request) (c c' : Control) : Prop :=
  ∃ l, c'.calls = l ++ c.calls ∧ ((∃ x ∈ l, Cancels r x) ∨ (Pending r c → Pending r c'))

-- What the functions of the module leave alone: a request that is put off, and the timeout of a query
structure Leaves (r : Request) (c c' : Control) : Prop where
  kept : Kept r c c'
  timed : SdTimed c → SdTimed c'

section Leaves

variable {r : Request} {a b c : Control} {s : P2pData} {env : Env}

theorem Leaves.refl (r : Request) (c : Control) : Leaves r c c :=
  ⟨⟨[], rfl, .inr id⟩, id⟩

theorem Kept.trans (h : Kept r a b) (h' : Kept r b c) : Kept r a c := by
  obtain ⟨l, hl, hkept⟩ := h
  obtain ⟨l', hl', hkept'⟩ := h'
  refine ⟨l' ++ l, by rw [hl', hl, List.append_assoc], ?_⟩
  rcases hkept with ⟨x, hx, hcancel⟩ | hkept
  · exact .inl ⟨x, List.mem_append_right _ hx, hcancel⟩
  rcases hkept' with ⟨x, hx, hcancel⟩ | hkept'
  · exact .inl ⟨x, List.mem_append_left _ hx, hcancel⟩
  · exact .inr fun h => hkept' (hkept h)

theorem Leaves.trans (h : Leaves r a b) (h' : Leaves r b c) : Leaves r a c :=
  ⟨h.kept.trans h'.kept, fun htimed => h'.timed (h.timed htimed)⟩

theorem Leaves.move (h : Leaves r a b) {x : State} {t : Bool}
    (hmove : x ≠ .sdDuringFind ∨ t = true) :
    Leaves r a { b with state := x, stateTimeout := t } := by
  refine h.trans ⟨⟨[], rfl, .inr ?_⟩, fun _ hstate => hmove.resolve_left fun hne => hne hstate⟩
  cases r <;> exact id

theorem leaves_log (x : Call) : Leaves r s.toControl (s.log x).toControl := by
  refine ⟨⟨[x], rfl, .inr ?_⟩, id⟩
  cases r <;> exact id

theorem Leaves.cancel {q : Request} {x : Call} (h : Leaves q a s.toControl) (hx : Cancels r x) :
    Leaves r a (s.log x).toControl := by
  obtain ⟨⟨l, hl, -⟩, htimed⟩ := h
  exact ⟨⟨x :: l, congrArg (x :: ·) hl, .inl ⟨x, by simp, hx⟩⟩, htimed⟩

theorem Leaves.of_cancel {q : Request} {x : Call} (hx : Cancels r x) (hcalls : b.calls = x :: a.calls)
    (htimed : SdTimed a → SdTimed b) (h : Leaves q b c) : Leaves r a c := by
  obtain ⟨⟨l, hl, -⟩, htimed'⟩ := h
  exact ⟨⟨l ++ [x], by rw [hl, hcalls, List.append_assoc]; rfl, .inl ⟨x, by simp, hx⟩⟩,
    fun h => htimed' (htimed h)⟩

theorem Leaves.setState (h : Leaves r a s.toControl) {x : State} (hx : x ≠ .sdDuringFind) :
    Leaves r a (s.setState x).toControl :=
  h.move (.inl hx)

theorem Leaves.reset (h : Leaves r a s.toControl) {x : State} (hx : x ≠ .sdDuringFind) :
    Leaves r a (s.clearTimeout.setState x).toControl :=
  h.move (.inl hx)

theorem Leaves.setTimeout (h : Leaves r a s.toControl) : Leaves r a s.setTimeout.toControl :=
  h.move (.inr rfl)

theorem leaves_devices {l : List Device} (h : ∀ p, r = .connect p → c.Has p → ∃ d ∈ l, d.addr = p) :
    Leaves r c { c with devices := l } := by
  refine ⟨⟨[], rfl, .inr fun hp => ?_⟩, id⟩
  cases r with
  | connect peer =>
    obtain ⟨h1, h2, h3, h4⟩ := hp
    exact ⟨h1, h2, h3, h peer rfl h4⟩
  | listen => exact hp

theorem leaves_modifyDevice (p : Addr) (f : Device → Device) :
    Leaves r s.toControl (s.modifyDevice p f).toControl := by
  refine leaves_devices ?_
  rintro q - ⟨d, hd, hq⟩
  refine ⟨_, List.mem_map_of_mem hd, ?_⟩
  split
  · exact hq
  · exact hq

theorem leaves_modifyPtr (ptr : Option Addr) (f : Device → Device) :
    Leaves r s.toControl (s.modifyPtr ptr f).toControl := by
  cases ptr with
  | none => exact .refl _ _
  | some p => exact leaves_modifyDevice p f

theorem Leaves.sendAction {freq : ℤ} {dst : Addr} {frame : Frame} (h : Leaves r a s.toControl) :
    Leaves r a (sendAction env s freq dst frame).1.toControl := by
  unfold P2p.sendAction
  split
  · split <;> exact h
  · exact h.trans (leaves_log _)

theorem leaves_goNegFailed {peer : Option Device} {status : ℤ} :
    Leaves r s.toControl (goNegFailed s peer status).toControl := by
  have h := (Leaves.refl r s.toControl).reset (x := .idle) (by simp)
  exact (h.trans (leaves_modifyPtr _ _)).trans (leaves_log _)

theorem leaves_clearPointers {dev : Device} :
    Leaves r s.toControl (clearPointers s dev).toControl := by
  unfold clearPointers
  dsimp only
  split <;> split <;> split <;> split <;> first | exact leaves_goNegFailed | exact .refl _ _

theorem leaves_removeDevice {dev : Device} :
    Leaves r s.toControl (removeDevice s dev).toControl := by
  have hfilter : ∀ q, q ≠ .connect dev.addr →
      Leaves q s.toControl
        ({ s with devices := s.devices.filter (·.addr ≠ dev.addr) } : P2pData).toControl := by
    intro q hq
    refine leaves_devices ?_
    rintro p rfl ⟨d, hd, hp⟩
    have hne : d.addr ≠ dev.addr := fun heq => hq (by rw [← hp, heq])
    exact ⟨d, by simp [hd, hne], hp⟩
  unfold removeDevice deviceFree
  by_cases hr : r = .connect dev.addr
  · -- the removal of the peer takes its request back
    exact ((hfilter .listen (by simp)).trans leaves_clearPointers).cancel hr
  · exact ((hfilter r hr).trans leaves_clearPointers).trans (leaves_log _)

theorem leaves_foldl {α : Type} {f : P2pData → α → P2pData}
    (hf : ∀ s x, Leaves r s.toControl (f s x).toControl) (l : List α) (s : P2pData) :
    Leaves r s.toControl (l.foldl f s).toControl := by
  induction l generalizing s with
  | nil => exact .refl _ _
  | cons x l ih => exact (hf s x).trans (ih _)

theorem leaves_makeRoom : Leaves r s.toControl (makeRoom s).toControl := by
  unfold makeRoom
  split
  · split
    · exact leaves_removeDevice
    · exact .refl _ _
  · exact .refl _ _

theorem leaves_createDevice {p : Addr} :
    Leaves r s.toControl (createDevice env s p).1.toControl := by
  unfold createDevice
  split
  · exact .refl _ _
  dsimp only
  split
  · refine (leaves_makeRoom).trans (leaves_devices ?_)
    rintro q - ⟨d, hd, hq⟩
    exact ⟨d, List.mem_cons_of_mem _ hd, hq⟩
  · exact leaves_makeRoom

theorem leaves_stopFindForFreq {freq : ℤ} :
    Leaves r s.toControl (stopFindForFreq s freq).toControl := by
  have h : Leaves r s.toControl { s.toControl with
      state := .idle, stateTimeout := false, startAfterScan := .nothing
      calls := .stopFind :: s.calls } :=
    ⟨⟨[.stopFind], rfl, .inl ⟨.stopFind, by simp, trivial⟩⟩, fun _ hstate => nomatch hstate⟩
  unfold stopFindForFreq
  dsimp only
  split <;> exact h

theorem Leaves.stopFind (h : Leaves r a s.toControl) : Leaves r a (stopFind s).toControl :=
  h.trans leaves_stopFindForFreq

end Leaves

section GoNegotiation

variable {r : Request} {s : P2pData} {env : Env} {sa : Addr} {msg : Message} {rxFreq : ℤ}

theorem leaves_peerChannelsCheck {own : Channels} {l : Octets} :
    Leaves r s.toControl (peerChannelsCheck s own sa l).1.toControl := by
  unfold peerChannelsCheck
  split
  · split <;> exact leaves_modifyDevice _ _
  · exact leaves_modifyDevice _ _

theorem leaves_connectSend {peer : Addr} :
    Leaves r s.toControl (connectSend env s peer).1.toControl := by
  unfold connectSend
  split
  · exact .refl _ _
  split
  · exact .refl _ _
  split
  · exact .refl _ _
  dsimp only
  split
  · exact .sendAction ((leaves_modifyDevice peer _).setState (x := .connect) (by simp))
  · exact .setTimeout
      (.sendAction ((leaves_modifyDevice peer _).setState (x := .connect) (by simp)))

theorem toControl_reselectChannel (l : Channels) : (reselectChannel s l).toControl = s.toControl := by
  unfold reselectChannel
  dsimp only
  split
  · rfl
  · rfl
  · split <;> rfl

theorem toControl_setupGo : (setupGo env s sa).1.toControl = s.toControl := by
  unfold setupGo
  dsimp only
  split
  · rfl
  split
  · rfl
  · dsimp only
    split <;> split <;> first | rfl | exact toControl_reselectChannel _

theorem leaves_setupRole {go : Bool} :
    Leaves r s.toControl (setupRole env s sa go).1.toControl := by
  unfold setupRole
  split
  · rw [toControl_setupGo]
    exact .refl _ _
  · exact .refl _ _

theorem leaves_addDevFromGoNegReq :
    Leaves r s.toControl (addDevFromGoNegReq env s sa msg).toControl := by
  unfold addDevFromGoNegReq
  dsimp only
  split
  · exact (leaves_createDevice).trans (leaves_modifyDevice _ _)
  · exact leaves_createDevice

theorem leaves_negotiated {goState : GoState} {operFreq : ℤ} {token : UInt8} {intended : Addr} :
    Leaves r s.toControl (negotiated s sa goState operFreq token intended rxFreq).toControl := by
  have h := leaves_modifyDevice (r := r) (s := s) sa fun d =>
    { d with goState := goState, operFreq := operFreq }
  unfold negotiated
  refine .trans ?_ (leaves_modifyDevice _ _)
  split
  · exact (h.trans leaves_stopFindForFreq).move (x := .goNeg) (t := false) (.inl (by simp))
  · exact h.move (x := .goNeg) (t := false) (.inl (by simp))

theorem leaves_negotiateReq {dev : Device} {op : ChannelAttr} {l : Octets} {intended : Addr} :
    Leaves r s.toControl (negotiateReq env s dev msg op l intended rxFreq).1.toControl := by
  have h : Leaves r s.toControl ((defaultChannels s dev).modifyDevice dev.addr fun d =>
      { d with notYetReady := false }).toControl := by
    unfold defaultChannels
    split <;> exact leaves_modifyDevice _ _
  unfold negotiateReq
  dsimp only
  split
  · exact h
  split
  · exact h
  split
  · exact h
  split
  · exact h
  have hcheck : Leaves r s.toControl (peerChannelsCheck ((defaultChannels s dev).modifyDevice
      dev.addr fun d => { d with notYetReady := false }) (defaultChannels s dev).channels
      dev.addr l).1.toControl :=
    h.trans leaves_peerChannelsCheck
  split
  · exact hcheck
  split
  · exact hcheck
  split
  · exact hcheck.trans leaves_setupRole
  · exact (hcheck.trans leaves_setupRole).trans leaves_negotiated

theorem leaves_awaitConfirm {status : UInt8} :
    Leaves r s.toControl (awaitConfirm s sa status).toControl := by
  unfold awaitConfirm
  split
  · exact leaves_modifyDevice sa _
  · exact .refl _ _

theorem leaves_respondGoNeg {peer : Option Addr} {status : UInt8} :
    Leaves r s.toControl (respondGoNeg env s sa peer msg status rxFreq).toControl := by
  have h := leaves_modifyPtr (r := r) (s := s) peer fun d => { d with status := status }
  unfold respondGoNeg
  dsimp only
  split
  · exact h
  split
  · exact h
  · exact .sendAction (h.trans leaves_awaitConfirm)

theorem leaves_knowPeer : Leaves r s.toControl (knowPeer env s sa msg).toControl := by
  unfold knowPeer
  split
  · exact leaves_addDevFromGoNegReq
  split
  · exact leaves_modifyDevice _ _
  · exact .refl _ _

theorem leaves_processGoNegReq :
    Leaves r s.toControl (processGoNegReq env s sa msg rxFreq).toControl := by
  unfold processGoNegReq
  split
  · split
    · exact leaves_respondGoNeg
    split
    · exact leaves_respondGoNeg
    have hknow : Leaves r s.toControl (knowPeer env s sa msg).toControl := leaves_knowPeer
    dsimp only
    refine hknow.trans ?_
    split
    · exact leaves_respondGoNeg
    split
    · exact leaves_respondGoNeg
    split
    · exact (leaves_modifyDevice sa _).trans leaves_respondGoNeg
    split
    · exact leaves_respondGoNeg
    split
    · exact leaves_negotiateReq
    · exact (leaves_negotiateReq).trans leaves_respondGoNeg
  · exact leaves_respondGoNeg

theorem leaves_storeSsid {client : Bool} :
    Leaves r s.toControl (storeSsid s client msg).toControl := by
  unfold storeSsid
  split <;> exact .refl _ _

theorem leaves_negotiateResp {dev : Device} :
    Leaves r s.toControl (negotiateResp env s dev msg).1.toControl := by
  unfold negotiateResp
  dsimp only
  split
  · split
    · exact .refl _ _
    split
    · exact .refl _ _
    rename_i go _
    have h : Leaves r s.toControl (storeSsid s (!go) msg).toControl := leaves_storeSsid
    split
    · exact h
    split
    · exact h
    rename_i l _
    have hcheck : Leaves r s.toControl (peerChannelsCheck (storeSsid s (!go) msg)
        (storeSsid s (!go) msg).channels dev.addr l).1.toControl :=
      h.trans leaves_peerChannelsCheck
    split
    · exact hcheck
    split
    · exact hcheck.trans (leaves_modifyDevice _ _)
    split
    · exact (hcheck.trans (leaves_modifyDevice _ _)).trans leaves_setupRole
    refine .trans ?_ (leaves_modifyDevice _ _)
    exact ((hcheck.trans (leaves_modifyDevice _ _)).trans leaves_setupRole).move
      (x := .goNeg) (t := false) (.inl (by simp))
  · exact .refl _ _

theorem leaves_confirmGoNeg {status : UInt8} {go : Option Bool} :
    Leaves r s.toControl (confirmGoNeg env s sa msg status go rxFreq).toControl := by
  have h : Leaves r s.toControl (awaitConfirmTx s sa status go).toControl := by
    unfold awaitConfirmTx
    split
    · exact leaves_modifyDevice sa _
    · exact .refl _ _
  unfold confirmGoNeg
  split
  · exact .refl _ _
  dsimp only
  split
  · exact .refl _ _
  split
  · exact h.sendAction
  · exact h.sendAction.trans leaves_goNegFailed

theorem leaves_processGoNegResp :
    Leaves r s.toControl (processGoNegResp env s sa msg rxFreq).toControl := by
  have h := leaves_modifyDevice (r := r) (s := s) sa fun d => { d with waitGoNegResponse := false }
  unfold processGoNegResp
  split
  · exact .refl _ _
  split
  · exact .refl _ _
  split
  · exact .refl _ _
  dsimp only
  split
  · exact h
  split
  · exact h.trans leaves_confirmGoNeg
  split
  · split
    · exact (((h.trans (leaves_modifyDevice sa _)).trans (leaves_modifyDevice sa _)).setState
        (x := .waitPeerIdle) (by simp)).setTimeout
    · exact (h.trans (leaves_modifyDevice sa _)).trans leaves_goNegFailed
  · exact (h.trans leaves_negotiateResp).trans leaves_confirmGoNeg

theorem leaves_goComplete {peer : Device} : Leaves r s.toControl (goComplete s peer).toControl := by
  have h : Leaves r s.toControl ((s.clearTimeout.modifyDevice peer.addr fun d =>
      { d with goNegReqSent := 0, wpsMethod := .notReady }).setState .provisioning).toControl :=
    ((leaves_modifyDevice (s := s) peer.addr _).move (.inl (by simp)))
  exact h.trans (leaves_log _)

theorem leaves_processGoNegConf {m : Option Message} :
    Leaves r s.toControl (processGoNegConf s sa m).toControl := by
  unfold processGoNegConf
  split
  · exact .refl _ _
  split
  · exact .refl _ _
  dsimp only
  have h : Leaves r s.toControl (stopWaitingForTx s).toControl := by
    unfold stopWaitingForTx
    split <;> exact .refl _ _
  split
  · exact h
  split
  · exact h
  have h' := h.trans (leaves_modifyDevice sa fun d => { d with waitGoNegConfirm := false })
  split
  · exact h'
  split
  · exact h'
  split
  · exact h'.trans leaves_storeSsid
  · exact (h'.trans leaves_storeSsid).trans leaves_goComplete

end GoNegotiation

section Find

variable {r : Request} {s : P2pData} {env : Env}

theorem leaves_listenInFind : Leaves r s.toControl (listenInFind env s).toControl := by
  unfold listenInFind
  dsimp only
  split
  · exact .refl _ _
  split
  · exact .refl _ _
  · split <;> exact leaves_log _

-- A listen that comes during a scan does no harm where another one is waiting already.
theorem leaves_listen {timeout : ℕ}
    (h : s.scanRunning = true → 0 ≤ s.listenFreq → s.startAfterScan = .listen) :
    Leaves r s.toControl (listen env s timeout).1.toControl := by
  unfold listen
  dsimp only
  split
  · exact leaves_log _
  rename_i hfreq
  split
  · rename_i hscan
    have hafter := h hscan (by omega)
    split
    · exact leaves_log _
    refine ⟨⟨[.listen], rfl, .inr fun hp => ?_⟩, id⟩
    cases r with
    | connect peer => exact absurd (hp.2.1.symm.trans hafter) (by simp)
    | listen => exact ⟨hp.1, rfl⟩
  · split
    · exact leaves_log _
    split
    · exact ((leaves_log _).trans (leaves_log _)).setState (x := .listenOnly) (by simp)
    · exact (leaves_log _).trans (leaves_log _)

theorem timed_listen {timeout : ℕ} (h : SdTimed s.toControl) :
    SdTimed (listen env s timeout).1.toControl := by
  unfold listen
  dsimp only
  split
  · exact h
  split
  · split <;> exact h
  split
  · exact h
  split
  · exact fun hstate => nomatch hstate
  · exact h

theorem leaves_startSd {dev : Device} : Leaves r s.toControl (startSd env s dev).1.toControl := by
  unfold startSd
  split
  · exact .refl _ _
  split
  · exact .refl _ _
  split
  · exact .refl _ _
  · exact .sendAction (.refl _ _)

theorem leaves_sendProvDiscReq {dev : Device} :
    Leaves r s.toControl (sendProvDiscReq env s dev).1.toControl := by
  have h := leaves_modifyDevice (r := r) (s := s) dev.addr fun d =>
    { d with dialogToken := nextToken dev.dialogToken }
  unfold sendProvDiscReq
  split
  · exact .refl _ _
  split
  · exact .refl _ _
  dsimp only
  split
  · exact h
  split
  · exact .sendAction h
  · exact .sendAction h

theorem leaves_continueFindLoop (l : List Device) (s : P2pData) :
    Leaves r s.toControl (continueFindLoop env l s).1.toControl := by
  induction l generalizing s with
  | nil => exact .refl _ _
  | cons dev l ih =>
    unfold continueFindLoop
    split
    · exact leaves_startSd
    split
    · dsimp only
      split
      · exact leaves_sendProvDiscReq
      · exact (leaves_sendProvDiscReq).trans (ih _)
    · exact ih s

theorem Leaves.continueFind {a : Control} (h : Leaves r a (s.setState .search).toControl) :
    Leaves r a (continueFind env s).toControl := by
  unfold P2p.continueFind
  dsimp only
  split
  · exact h.trans (leaves_continueFindLoop _ _)
  · exact (h.trans (leaves_continueFindLoop _ _)).trans leaves_listenInFind

theorem leaves_continueFind : Leaves r s.toControl (continueFind env s).toControl :=
  .continueFind (.setState (.refl _ _) (by simp))

theorem leaves_startScan (t : Timeouts) :
    Leaves r s.toControl ({ s with scanRunning := true, toTimeouts := t } : P2pData).toControl := by
  refine ⟨⟨[], rfl, .inr fun hp => ?_⟩, id⟩
  cases r <;> exact ⟨rfl, hp.2⟩

theorem leaves_search : Leaves r s.toControl (search env s).toControl := by
  unfold search
  split
  · exact .refl _ _
  dsimp only
  split
  · exact (leaves_log _).trans leaves_continueFind
  · exact (leaves_log _).trans (leaves_startScan _)

theorem leaves_find {timeout num : ℕ} : Leaves r s.toControl (find env s timeout num).1.toControl := by
  have hlog : Leaves r s.toControl (s.log .find).toControl :=
    (Leaves.refl r s.toControl).cancel trivial
  -- the request is taken back by the call itself
  have h : Leaves r s.toControl { (s.log .find).toControl with
      state := .search, stateTimeout := false, startAfterScan := .nothing
      calls := .p2pScan :: .find :: s.calls } :=
    ⟨⟨[.p2pScan, .find], rfl, .inl ⟨.find, by simp, trivial⟩⟩, fun _ hstate => nomatch hstate⟩
  unfold find
  dsimp only
  split
  · exact hlog
  split
  · exact h.trans ⟨⟨[], rfl, .inr fun hp => by cases r <;> exact ⟨rfl, hp.2⟩⟩, id⟩
  · exact h.move (x := .searchWhenReady) (t := false) (.inl (by simp))
  · exact h.move (x := .idle) (t := false) (.inl (by simp))

theorem leaves_otherScanCompleted : Leaves r s.toControl (otherScanCompleted env s).toControl := by
  unfold otherScanCompleted
  split
  · exact .refl _ _
  · exact leaves_find

theorem timed_runAfterScan (h : SdTimed s.toControl) :
    SdTimed (runAfterScan env s).1.toControl := by
  unfold runAfterScan
  split
  · exact h
  dsimp only
  split
  · exact h
  · exact timed_listen h
  split
  · exact h
  · exact (leaves_connectSend (r := .listen)).timed h

theorem timed_scanTimeout (h : SdTimed s.toControl) : SdTimed (scanTimeout env s).toControl := by
  unfold scanTimeout
  split
  · exact timed_runAfterScan h
  · exact h

theorem timed_scanResHandled (h : SdTimed s.toControl) :
    SdTimed (scanResHandled env s).toControl := by
  have hrun : SdTimed (runAfterScan env (scanEnded s)).1.toControl := timed_runAfterScan h
  unfold scanResHandled
  dsimp only
  split
  · exact hrun
  split
  · exact (leaves_continueFind (r := .listen)).timed hrun
  · exact hrun

theorem prepareChannel_control {forceFreq : ℕ} {t : P2pData} (h : prepareChannel s forceFreq = some t) :
    t.toControl = s.toControl := by
  unfold prepareChannel at h
  split at h
  · split at h
    · cases h
    split at h
    · cases h
      rfl
    · cases h
  · cases h
    rfl

variable {p : ConnectParams}

theorem leaves_startConnect : Leaves r s.toControl (startConnect s p).toControl := by
  unfold startConnect
  refine .trans ?_ (leaves_modifyDevice _ _)
  split
  · exact .stopFind (leaves_modifyDevice p.peer _)
  · exact leaves_modifyDevice p.peer _

-- Every other request is taken back, and the new one is put off where a scan is running.
theorem leaves_connect : Leaves r s.toControl (connect env s p).1.toControl := by
  refine .of_cancel (q := .connect p.peer) (x := .connect p.peer) (b := (s.log _).toControl) trivial
    rfl id ?_
  unfold connect
  dsimp only
  split
  · exact .refl _ _
  rename_i t ht
  have ht : Leaves (.connect p.peer) (s.log (.connect p.peer)).toControl t.toControl :=
    prepareChannel_control ht ▸ .refl _ _
  split
  · exact ht
  split
  · exact ht
  split
  · exact ht
  split
  · exact ht
  have hstart : Leaves (.connect p.peer) (s.log (.connect p.peer)).toControl
      (startConnect { t with ssidSet := false } p).toControl := by
    refine .trans ?_ leaves_startConnect
    exact ht
  split
  · exact hstart.trans ⟨⟨[], rfl, .inr fun hp => ⟨hp.1, rfl, rfl, hp.2.2.2⟩⟩, id⟩
  rename_i hscan
  refine .trans ?_ leaves_connectSend
  exact hstart.trans ⟨⟨[], rfl, .inr fun hp => absurd hp.1 hscan⟩, id⟩

theorem leaves_authorize : Leaves r s.toControl (authorize s p).1.toControl := by
  unfold authorize
  split
  · exact .refl _ _
  rename_i t ht
  have h : Leaves r s.toControl t.toControl := prepareChannel_control ht ▸ .refl _ _
  split
  · exact h
  · exact h.trans (leaves_modifyDevice p.peer _)

end Find

end WpaSupplicant.P2p
