import WpaSupplicant.P2p.Lemmas.Events

namespace WpaSupplicant.P2p

open Lib.Machine

def newCalls (s s' : P2pData) : List Call := s'.calls.take (s'.calls.length - s.calls.length)

-- What is put off can be carried out at the end of the scan: no frame waits for it as well, the
-- frequency is known, and the frame is allocated.
def CanFinish (s : P2pData) (step : Step) : Prop :=
  completesScan s step.op = true → s.scanRunning = true →
    s.afterScanTx = none ∧
      (s.startAfterScan = .listen → 0 ≤ s.listenFreq ∧ step.env.alloc .probeRespIes = true) ∧
      (s.startAfterScan = .connect →
        (s.getDevice s.afterScanPeer).all (0 < ·.txFreq) = true ∧ step.env.alloc .goNegReq = true)

instance (s : P2pData) (step : Step) : Decidable (CanFinish s step) :=
  inferInstanceAs (Decidable (_ → _ → _ ∧ (_ → _ ∧ _) ∧ (_ → _ ∧ _)))

-- A step that loses no request: a listen does not come in the way, and the end of the scan finds what
-- it needs.
def LosesNone (s : P2pData) (step : Step) : Prop := ListenFits s step.op ∧ CanFinish s step

instance (s : P2pData) (step : Step) : Decidable (LosesNone s step) :=
  inferInstanceAs (Decidable (_ ∧ _))

def Defers (r : Request) (s : P2pData) (step : Step) : Prop :=
  s.scanRunning = true ∧
    match r with
    | .connect peer => ∃ p, step.op = .connect p ∧ p.peer = peer ∧ (connect step.env s p).2 = true
    | .listen => ∃ timeout, step.op = .listen timeout ∧ (listen step.env s timeout).2 = true

-- A request is carried out: the GO Negotiation Request is sent, or `p2p_listen` is called and the driver
-- starts to listen.
def CarriedOut (r : Request) (s s' : P2pData) : Prop :=
  match r with
  | .connect peer => ∃ freq msg ok, Call.sendAction freq peer (.goNegReq msg) ok ∈ newCalls s s'
  | .listen => newCalls s s' = [.startListen s.listenFreq, .listen]

section Lemmas

variable {r : Request} {s s' : P2pData} {step : Step} {env : Env}

theorem newCalls_eq {l : List Call} (h : s'.calls = l ++ s.calls) : newCalls s s' = l := by
  simp [newCalls, h]

-- A run that keeps what is put off and takes nothing back
theorem kept_runs (hrun : Runs exec (fun s step =>
      LosesNone s step ∧ completesScan s step.op = false) s s') :
    Kept r s.toControl s'.toControl := by
  refine hrun.rule (I := fun u => Kept r s.toControl u.toControl) (Leaves.refl r _).kept ?_
  intro u step hkept ⟨hok, hscan⟩
  exact hkept.trans (kept_exec hscan hok.1)

theorem Kept.pending (h : Kept r s.toControl s'.toControl)
    (hcancel : ∀ x ∈ newCalls s s', ¬Cancels r x) (hp : Pending r s.toControl) :
    Pending r s'.toControl := by
  obtain ⟨l, hl, ⟨x, hx, hxc⟩ | hkept⟩ := h
  · rw [newCalls_eq hl] at hcancel
    exact absurd hxc (hcancel x hx)
  · exact hkept hp

theorem stopFind_control :
    (stopFind s).scanRunning = s.scanRunning ∧ (stopFind s).devices = s.devices := by
  unfold stopFind stopFindForFreq
  dsimp only
  split <;> exact ⟨rfl, rfl⟩

theorem startConnect_control {p : ConnectParams} (h : s.Has p.peer) :
    (startConnect s p).scanRunning = s.scanRunning ∧ (startConnect s p).Has p.peer := by
  have hmodify : ∀ (u : P2pData) f, u.Has p.peer → (u.modifyDevice p.peer f).Has p.peer := by
    rintro u f ⟨d, hd, hpeer⟩
    refine ⟨_, List.mem_map_of_mem hd, ?_⟩
    split <;> exact hpeer
  unfold startConnect
  dsimp only
  split
  · obtain ⟨hscan, hdev⟩ := stopFind_control (s := { s.modifyDevice p.peer _ with
      goIntent := p.goIntent, intendedAddr := p.ownInterfaceAddr })
    refine ⟨hscan, hmodify _ _ ?_⟩
    unfold Control.Has
    dsimp only
    rw [hdev]
    exact hmodify s _ h
  · exact ⟨rfl, hmodify _ _ (hmodify s _ h)⟩

theorem connect_pending {p : ConnectParams} (hscan : s.scanRunning = true)
    (hres : (connect env s p).2 = true) :
    Pending (.connect p.peer) (connect env s p).1.toControl := by
  cases ht : prepareChannel (s.log (.connect p.peer)) p.forceFreq with
  | none => simp [connect, ht] at hres
  | some t =>
    cases hd : P2pData.getDevice { t with ssidSet := false } p.peer with
    | none => simp [connect, ht, hd] at hres
    | some dev =>
      have hhas : Control.Has t.toControl p.peer :=
        ⟨dev, List.mem_of_find?_eq_some hd, getDevice_addr hd⟩
      have hrun : t.scanRunning = true := by rw [prepareChannel_control ht]; exact hscan
      obtain ⟨hstart, hpeer⟩ := startConnect_control (s := { t with ssidSet := false }) hhas
      simp only [connect, ht, hd] at hres ⊢
      split at hres
      · cases hres
      rename_i h1
      rw [if_neg h1]
      split at hres
      · cases hres
      rename_i h2
      rw [if_neg h2]
      split at hres
      · cases hres
      rename_i h3
      rw [if_neg h3, if_pos (hstart.trans hrun)]
      exact ⟨hstart.trans hrun, rfl, rfl, hpeer⟩

theorem listen_pending {timeout : ℕ} (hscan : s.scanRunning = true)
    (hres : (listen env s timeout).2 = true) (hfits : 0 ≤ s.listenFreq → s.startAfterScan = .listen) :
    Pending .listen (listen env s timeout).1.toControl := by
  unfold listen at hres ⊢
  dsimp only at hres ⊢
  split at hres
  · cases hres
  rename_i hfreq
  have hafter := hfits (by omega)
  rw [if_neg hfreq]
  have hscan' : (s.log .listen).scanRunning = true := hscan
  have hafter' : (s.log .listen).startAfterScan ≠ .nothing := by
    rw [show (s.log .listen).startAfterScan = .listen from hafter]
    simp
  rw [if_pos hscan', if_neg hafter']
  exact ⟨hscan, rfl⟩

theorem connectSend_calls {peer : Addr} {dev : Device} (hdev : s.getDevice peer = some dev)
    (hfreq : 0 < dev.txFreq) (halloc : env.alloc .goNegReq = true) (hscan : s.scanRunning = false) :
    (connectSend env s peer).1.calls =
      .sendAction dev.txFreq peer (.goNegReq (buildGoNegReq s dev (nextToken dev.dialogToken)))
        (env.sendAction peer) :: s.calls := by
  have hne : ¬dev.txFreq ≤ 0 := by omega
  have hrun : ∀ f x, ((s.modifyDevice peer f).setState x).scanRunning ≠ true := by
    intro f x
    rw [show ((s.modifyDevice peer f).setState x).scanRunning = s.scanRunning from rfl, hscan]
    simp
  simp only [connectSend, hdev, if_neg hne, halloc, sendAction]
  rw [if_neg (by simp), if_neg (hrun _ _)]
  dsimp only
  split <;> rfl

theorem listen_calls {timeout : ℕ} (hfreq : 0 ≤ s.listenFreq) (hscan : s.scanRunning = false)
    (halloc : env.alloc .probeRespIes = true) :
    (listen env s timeout).1.calls = .startListen s.listenFreq :: .listen :: s.calls := by
  have hne : ¬s.listenFreq < 0 := by omega
  have hrun : (s.log .listen).scanRunning ≠ true := by
    rw [show (s.log .listen).scanRunning = s.scanRunning from rfl, hscan]
    simp
  simp only [listen, if_neg hne, halloc]
  rw [if_neg hrun, if_neg (by simp)]
  split <;> rfl

theorem runAfterScan_connect {dev : Device} (htx : s.afterScanTx = none)
    (hafter : s.startAfterScan = .connect) (hdev : s.getDevice s.afterScanPeer = some dev) :
    runAfterScan env s =
      ((connectSend env { s with startAfterScan := .nothing } s.afterScanPeer).1, true) := by
  have hdev' : P2pData.getDevice { s with startAfterScan := .nothing } s.afterScanPeer = some dev :=
    hdev
  unfold runAfterScan
  split
  · rename_i htx'
    cases htx.symm.trans htx'
  dsimp only
  rw [hafter]
  dsimp only
  rw [hdev']

theorem runAfterScan_listen (htx : s.afterScanTx = none) (hafter : s.startAfterScan = .listen) :
    runAfterScan env s = ((listen env { s with startAfterScan := .nothing }
      (s.pendingListenSec * 1000 + s.pendingListenUsec / 1000)).1, true) := by
  unfold runAfterScan
  split
  · rename_i htx'
    cases htx.symm.trans htx'
  · dsimp only
    rw [hafter]

theorem runAfterScan_carriesOut (hp : Pending r s.toControl) (hdone : completesScan s step.op = true)
    (hok : CanFinish s step) :
    (runAfterScan step.env (scanEnded s)).2 = true ∧
      CarriedOut r s (runAfterScan step.env (scanEnded s)).1 := by
  obtain ⟨hscan, hp⟩ := hp
  obtain ⟨htx, hlisten, hconnect⟩ := hok hdone hscan
  cases r with
  | connect peer =>
    obtain ⟨hafter, rfl, hhas⟩ := hp
    obtain ⟨hfreq, halloc⟩ := hconnect hafter
    obtain ⟨dev, hdev⟩ := Option.isSome_iff_exists.mp (isSome_getDevice_iff.2 hhas)
    have hfreq' : 0 < dev.txFreq := by simpa [hdev] using hfreq
    rw [runAfterScan_connect (s := scanEnded s) htx hafter hdev]
    have hcalls : (connectSend step.env { scanEnded s with startAfterScan := .nothing }
        (scanEnded s).afterScanPeer).1.calls = _ :=
      connectSend_calls hdev hfreq' halloc rfl
    exact ⟨rfl, dev.txFreq, _, _, newCalls_eq (l := [_]) hcalls ▸ List.mem_singleton.mpr rfl⟩
  | listen =>
    obtain ⟨hfreq, halloc⟩ := hlisten hp
    rw [runAfterScan_listen (s := scanEnded s) htx hp]
    have hcalls : (listen step.env { scanEnded s with startAfterScan := .nothing }
        ((scanEnded s).pendingListenSec * 1000 + (scanEnded s).pendingListenUsec / 1000)).1.calls = _ :=
      listen_calls hfreq rfl halloc
    exact ⟨rfl, newCalls_eq (s := s) (l := [.startListen s.listenFreq, .listen]) hcalls⟩

theorem exec_carriesOut (hp : Pending r s.toControl) (hdone : completesScan s step.op = true)
    (hok : CanFinish s step) : CarriedOut r s (exec s step) := by
  obtain ⟨hres, hcarried⟩ := runAfterScan_carriesOut hp hdone hok
  unfold exec
  dsimp only
  split <;> rename_i hop <;> first | (simp [hop, completesScan] at hdone; done) | skip
  · unfold scanResHandled
    dsimp only
    rw [if_pos hres]
    exact hcarried
  · rw [if_pos (by simpa [hop, completesScan] using hdone)]
    unfold scanTimeout
    rw [if_pos hp.1]
    exact hcarried

theorem defers_pending (h : Defers r s step) (hfits : ListenFits s step.op) :
    Pending r (exec s step).toControl := by
  obtain ⟨hscan, h⟩ := h
  cases r with
  | connect peer =>
    obtain ⟨p, hop, rfl, hres⟩ := h
    simp only [exec, hop]
    exact connect_pending hscan hres
  | listen =>
    obtain ⟨timeout, hop, hres⟩ := h
    simp only [exec, hop]
    exact listen_pending hscan hres (hfits (by rw [hop]; rfl) hscan)

end Lemmas

-- A request that was put off is carried out at the end of the scan, in every run of steps that lose
-- none, unless it is taken back.
theorem deferred_request_carried_out {r : Request} {s s' : P2pData} {req done : Step}
    (hreq : Defers r s req) (hreqok : LosesNone s req)
    (hrun : Runs exec (fun s step => LosesNone s step ∧ completesScan s step.op = false)
      (exec s req) s')
    (hcancel : ∀ x ∈ newCalls (exec s req) s', ¬Cancels r x)
    (hdone : completesScan s' done.op = true) (hdoneok : LosesNone s' done) :
    CarriedOut r s' (exec s' done) := by
  have hpending : Pending r (exec s req).toControl := defers_pending hreq hreqok.1
  have hkept : Pending r s'.toControl := (kept_runs hrun).pending hcancel hpending
  exact exec_carriesOut hkept hdone hdoneok.2

def foundPeer : P2pData :=
  [⟨{}, .find 0 0⟩, ⟨{}, .scanResHandler 2 2412 { deviceAddr := some 2 }⟩].foldl exec
    (init
      { devAddr := 1
        country := ⟨85, 83, 4⟩
        regClass := 81
        channel := 1
        opRegClass := 81
        opChannel := 6
        channels := [⟨81, [1, 6, 11]⟩] } false ⟨true, true⟩)

def connectPeer : Step := ⟨{}, .connect { peer := 2, wpsMethod := .pbc, goIntent := 7 }⟩

-- A listen waits for the scan already.
def listenWaits : P2pData := exec (exec foundPeer connectPeer) ⟨{}, .listen 1000⟩

theorem deferred_request_carried_out_found :
    CarriedOut (.connect 2) (exec (exec foundPeer connectPeer) ⟨{}, .probeReqRx 3 true none none⟩)
      (exec (exec (exec foundPeer connectPeer) ⟨{}, .probeReqRx 3 true none none⟩)
        ⟨{}, .scanResHandled⟩) ∧
    CarriedOut .listen (exec (exec listenWaits ⟨{}, .listen 500⟩) ⟨{}, .probeReqRx 3 true none none⟩)
      (exec (exec (exec listenWaits ⟨{}, .listen 500⟩) ⟨{}, .probeReqRx 3 true none none⟩)
        ⟨{}, .scanResHandled⟩) := by
  have hres : (connect {} foundPeer { peer := 2, wpsMethod := .pbc, goIntent := 7 }).2 = true := by
    decide
  have hcalls : newCalls (exec foundPeer connectPeer)
      (exec (exec foundPeer connectPeer) ⟨{}, .probeReqRx 3 true none none⟩) = [] := by
    decide
  have hreq : Defers (.connect 2) foundPeer connectPeer :=
    ⟨by decide, _, rfl, rfl, hres⟩
  have hlisten : (listen {} listenWaits 500).2 = true := by
    decide
  have hnone : newCalls (exec listenWaits ⟨{}, .listen 500⟩)
      (exec (exec listenWaits ⟨{}, .listen 500⟩) ⟨{}, .probeReqRx 3 true none none⟩) = [] := by
    decide
  have hdefers : Defers .listen listenWaits ⟨{}, .listen 500⟩ := ⟨by decide, _, rfl, hlisten⟩
  constructor
  · refine deferred_request_carried_out hreq (by decide)
      (.step _ .init ⟨by decide, by decide⟩) ?_ rfl
      (by decide)
    rw [hcalls]
    simp
  · refine deferred_request_carried_out hdefers (by decide)
      (.step _ .init ⟨by decide, by decide⟩) ?_ rfl
      (by decide)
    rw [hnone]
    simp

-- A `p2p_listen` after the connect takes its place, and a `p2p_listen` after a stopped find is
-- forgotten, each with a result of 0.
theorem deferred_request_lost :
    (Defers (.connect 2) foundPeer connectPeer ∧
      (∀ x ∈ newCalls (exec foundPeer connectPeer)
        (exec (exec foundPeer connectPeer) ⟨{}, .listen 1000⟩), ¬Cancels (.connect 2) x) ∧
      ¬CarriedOut (.connect 2) (exec (exec foundPeer connectPeer) ⟨{}, .listen 1000⟩)
        (exec (exec (exec foundPeer connectPeer) ⟨{}, .listen 1000⟩) ⟨{}, .scanResHandled⟩)) ∧
    (Defers .listen (exec foundPeer ⟨{}, .stopFind⟩) ⟨{}, .listen 1000⟩ ∧
      (exec foundPeer ⟨{}, .stopFind⟩).startAfterScan = .nothing ∧
      (exec foundPeer ⟨{}, .stopFind⟩).afterScanTx = none ∧
      ¬CarriedOut .listen (exec (exec foundPeer ⟨{}, .stopFind⟩) ⟨{}, .listen 1000⟩)
        (exec (exec (exec foundPeer ⟨{}, .stopFind⟩) ⟨{}, .listen 1000⟩) ⟨{}, .scanResHandled⟩)) := by
  have hres : (connect {} foundPeer { peer := 2, wpsMethod := .pbc, goIntent := 7 }).2 = true := by
    decide
  have hcalls : newCalls (exec foundPeer connectPeer)
      (exec (exec foundPeer connectPeer) ⟨{}, .listen 1000⟩) = [.listen] := by
    decide
  have hnone : newCalls (exec (exec foundPeer connectPeer) ⟨{}, .listen 1000⟩)
      (exec (exec (exec foundPeer connectPeer) ⟨{}, .listen 1000⟩) ⟨{}, .scanResHandled⟩) =
        [.startListen 2412, .listen] := by
    decide
  have hlisten : (listen {} (exec foundPeer ⟨{}, .stopFind⟩) 1000).2 = true := by
    decide
  have hlost : newCalls (exec (exec foundPeer ⟨{}, .stopFind⟩) ⟨{}, .listen 1000⟩)
      (exec (exec (exec foundPeer ⟨{}, .stopFind⟩) ⟨{}, .listen 1000⟩) ⟨{}, .scanResHandled⟩) =
        [] := by
    decide
  refine ⟨⟨⟨by decide, _, rfl, rfl, hres⟩, ?_, ?_⟩,
    ⟨by decide, _, rfl, hlisten⟩, by decide, by decide, ?_⟩
  · rw [hcalls]
    simp [Cancels]
  · simp [CarriedOut, hnone]
  · simp [CarriedOut, hlost]

end WpaSupplicant.P2p
