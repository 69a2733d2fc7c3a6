import WpaSupplicant.Supplicant.Install

namespace WpaSupplicant.Supplicant

open Lib.Octets KeyData

def keyKinds (out : List Out) : List KeyKind :=
  out.filterMap fun
    | .setKey kind _ _ _ _ _ _ => some kind
    | _ => none

def NoKey (o : Out) : Prop := keyKinds [o] = []

section Kinds

variable (cr : Crypto) (env : Env) {R : Sm → Sm → Prop} {a c : Ctx}

theorem keyKinds_append (l l' : List Out) : keyKinds (l ++ l') = keyKinds l ++ keyKinds l' := by
  simp [keyKinds, List.filterMap_append]

theorem keyKinds_of_noKey {l : List Out} (h : ∀ o ∈ l, NoKey o) : keyKinds l = [] := by
  induction l with
  | nil => rfl
  | cons o l ih =>
    rw [← List.singleton_append, keyKinds_append, h o (by simp),
      ih fun x hx => h x (List.mem_cons_of_mem _ hx)]
    rfl

theorem Does.keyKinds (h : Does R NoKey a c) :
    Supplicant.keyKinds c.out = Supplicant.keyKinds a.out := by
  obtain ⟨l, hl, hall⟩ := h.emitted
  rw [hl, keyKinds_append, keyKinds_of_noKey hall, List.append_nil]

theorem keyKinds_emit (c : Ctx) {o : Out} (h : NoKey o) :
    keyKinds (c.emit o).out = keyKinds c.out := by
  rw [Ctx.emit, keyKinds_append, h, List.append_nil]

theorem Notice.noKey (o : Out) (h : Notice o) : NoKey o := by
  cases o with
  | setKey kind alg addr idx setTx seq key => exact h.elim
  | _ => rfl

theorem SentFrame.noKey {kck : Option (BitVec 128)} {frame : EapolKey} (o : Out)
    (h : SentFrame kck frame o) : NoKey o := by
  cases o with
  | micOver k g => rfl
  | etherSend dst g => rfl
  | _ => exact h.elim

theorem keyKinds_allocAndSend (kck : Option (BitVec 128)) (ver : KeyInfo) (dest : Addr)
    (frame : EapolKey) (c : Ctx) :
    keyKinds (allocAndSend cr env kck ver dest frame c).1.out = keyKinds c.out := by
  have h0 : Does (fun _ _ => True) NoKey c c := .refl trivial
  exact (allocAndSend_does cr env kck ver dest frame h0 (fun _ => trivial) SentFrame.noKey).keyKinds

theorem keyKinds_wpaSupplicantKeyNegComplete (addr : Addr) (secure : Bool) (c : Ctx) :
    keyKinds (wpaSupplicantKeyNegComplete addr secure c).out = keyKinds c.out := by
  have h0 : Does (fun _ _ => True) NoKey c c := .refl trivial
  exact (wpaSupplicantKeyNegComplete_does addr secure h0 Notice.noKey).keyKinds

def Hands (kinds : List KeyKind) (c c' : Ctx) : Prop :=
  ∃ l, l.Sublist kinds ∧ keyKinds c'.out = keyKinds c.out ++ l

theorem Hands.none {c c' : Ctx} (kinds : List KeyKind) (h : keyKinds c'.out = keyKinds c.out) :
    Hands kinds c c' := ⟨[], List.nil_sublist _, by simp [h]⟩

variable {ks : List KeyKind} {x : Ctx}

theorem Hands.trans {ks' : List KeyKind} {y z : Ctx} (h : Hands ks x y) (h' : Hands ks' y z) :
    Hands (ks ++ ks') x z := by
  obtain ⟨l, hl, hout⟩ := h
  obtain ⟨l', hl', hout'⟩ := h'
  exact ⟨l ++ l', hl.append hl', by rw [hout', hout, List.append_assoc]⟩

theorem Hands.after {y z : Ctx} (h : keyKinds y.out = keyKinds x.out) (h' : Hands ks y z) : Hands ks x z := by
  obtain ⟨l, hl, hout⟩ := h'
  exact ⟨l, hl, by rw [hout, h]⟩

theorem Hands.before {y z : Ctx} (h : Hands ks x y) (h' : keyKinds z.out = keyKinds y.out) :
    Hands ks x z := by
  obtain ⟨l, hl, hout⟩ := h
  exact ⟨l, hl, by rw [h', hout]⟩

theorem Hands.mono {ks' : List KeyKind} {y : Ctx} (h : Hands ks x y) (hks : ks.Sublist ks') :
    Hands ks' x y := by
  obtain ⟨l, hl, hout⟩ := h
  exact ⟨l, hl.trans hks, hout⟩

theorem Hands.andThen (ks ks' : List KeyKind) {x : Ctx} {r : Ctx × Bool} {g : Ctx → Ctx × Bool}
    (h : Hands ks x r.1) (hg : r.2 = true → Hands ks' r.1 (g r.1).1) :
    Hands (ks ++ ks') x (Lib.Effect.andThen r g).1 := by
  rw [Lib.Effect.andThen]
  split
  · rename_i hok
    exact h.trans (hg hok)
  · exact h.mono (List.sublist_append_left ks ks')

theorem Hands.orDeauthenticate {r : Ctx × Bool} (h : Hands ks x r.1) : Hands ks x (orDeauthenticate r) := by
  rw [Supplicant.orDeauthenticate]
  split
  · exact h
  · exact h.before (keyKinds_emit _ rfl)

theorem wpaSmSetKey_hands (kind : KeyKind) (alg : KeyAlg) (addr : Option Addr) (idx : ℕ)
    (setTx : Bool) (seq key : Octets) (c : Ctx) :
    Hands [kind] c (wpaSmSetKey env kind alg addr idx setTx seq key c).1 :=
  ⟨[kind], List.Sublist.refl _, by simp [wpaSmSetKey, Ctx.emit, Ctx.ask, keyKinds]⟩

theorem wpaSupplicantInstallPtk_hands (f : EapolKey) (c : Ctx) :
    Hands [.ptk] c (wpaSupplicantInstallPtk env f c).1 := by
  have hset (alg : WpaAlg) (seq : Octets) (len : ℕ) :
      Hands [.ptk] c (Lib.Effect.andThen (wpaSmSetKey env .ptk (.alg alg) (some c.sm.bssid) 0 true
        seq (c.sm.ptk.tkOctets len) c) fun c => ({ c with sm := { c.sm with
          rekeyTimer := c.sm.rekeyTimer || c.sm.conf.wpaPtkRekey } }, true)).1 := by
    have h := wpaSmSetKey_hands env .ptk (.alg alg) (some c.sm.bssid) 0 true seq
      (c.sm.ptk.tkOctets len) c
    rw [Lib.Effect.andThen]
    split
    · exact h
    · exact h
  rw [wpaSupplicantInstallPtk]
  split
  · exact hset .ccmp _ 16
  · exact hset .tkip _ 32
  · exact .none _ rfl
  · exact .none _ rfl

theorem wpaSupplicantInstallGtk_hands (gd : GtkData) (keyRsc : BitVec 64) (c : Ctx) :
    Hands [.gtk] c (wpaSupplicantInstallGtk env gd keyRsc c).1 := by
  simp only [wpaSupplicantInstallGtk]
  split
  · exact wpaSmSetKey_hands env _ _ _ _ _ _ _ c
  · exact wpaSmSetKey_hands env _ _ _ _ _ _ _ c

theorem wpaSupplicantPairwiseGtk_hands (f : EapolKey) (gtk : Octets) (c : Ctx) :
    Hands [.gtk] c (wpaSupplicantPairwiseGtk env f gtk c).1 := by
  rw [wpaSupplicantPairwiseGtk]
  split
  · exact .none _ rfl
  split
  · exact .none _ rfl
  generalize (⟨_, _, _, _, _⟩ : GtkData) = gd
  have h := wpaSupplicantInstallGtk_hands env gd f.keyRsc c
  rw [Lib.Effect.andThen]
  split
  · exact h.before (keyKinds_wpaSupplicantKeyNegComplete _ _ _)
  · exact h

theorem ieee80211wSetKeys_hands (ie : EapolIeParse) (c : Ctx) :
    Hands [.igtk] c (ieee80211wSetKeys env ie c).1 := by
  rw [ieee80211wSetKeys]
  split
  · exact .none _ rfl
  split
  · exact .none _ rfl
  simp only []
  split
  · exact .none _ rfl
  · exact wpaSmSetKey_hands env _ _ _ _ _ _ _ c

theorem install3of4_hands (f : EapolKey) (ie : EapolIeParse) (c : Ctx) :
    Hands [.ptk, .gtk, .igtk] c (install3of4 env f ie c).1 := by
  rw [install3of4]
  refine Hands.andThen [.ptk] [.gtk, .igtk] ?_ fun _ => ?_
  · split
    · exact .after rfl (wpaSupplicantInstallPtk_hands env f _)
    · exact .none _ rfl
  · generalize (if f.keyInfo.install = true then _ else _ : Ctx × Bool).1 = c1
    have h2 : keyKinds ((if f.keyInfo.secure = true then
        (c1.emit (.setProtection c1.sm.bssid false)).emit .portValid else c1).emit
        (.setState .groupHandshake)).out = keyKinds c1.out := by
      split
      · rw [keyKinds_emit, keyKinds_emit, keyKinds_emit] <;> rfl
      · rw [keyKinds_emit]
        rfl
    refine .after h2 (Hands.andThen [.gtk] [.igtk] ?_ fun _ => ?_)
    · cases ie.gtk with
      | none => exact .none _ rfl
      | some gtk => exact wpaSupplicantPairwiseGtk_hands env f gtk _
    · refine Hands.andThen [.igtk] [] (ieee80211wSetKeys_hands env ie _) fun _ => ?_
      exact .none _ (keyKinds_emit _ rfl)

theorem wpaSupplicantProcess3of4_hands (f : EapolKey) (ver : KeyInfo) (c : Ctx) :
    Hands [.ptk, .gtk, .igtk] c (wpaSupplicantProcess3of4 cr env f ver c) := by
  rw [wpaSupplicantProcess3of4]
  refine Hands.orDeauthenticate ?_
  refine Hands.andThen [] _ (.none _ (keyKinds_emit c rfl)) fun _ => ?_
  have hval (x : Ctx) : keyKinds (wpaSupplicantValidateIe env
      (wpaSupplicantParseIes (keyDataOf f)).2 x).1.out = keyKinds x.out :=
    (wpaSupplicantValidateIe_does env _ (.refl (.refl x.sm) : Does Kept NoKey x x)
      Notice.noKey).keyKinds
  refine Hands.andThen [] _ (.none _ (hval _)) fun _ => ?_
  refine Hands.andThen [] _ (.none _ rfl) fun _ => Hands.andThen [] _ (.none _ rfl) fun _ => ?_
  refine Hands.andThen [] _ (.none _ (keyKinds_allocAndSend cr env _ ver _ _ _)) fun _ => ?_
  exact install3of4_hands env f _ _

theorem wpaSupplicantProcess1of2_hands (f : EapolKey) (ver : KeyInfo) (c : Ctx) :
    Hands [.igtk, .gtk] c (wpaSupplicantProcess1of2 cr env f ver c) := by
  rw [wpaSupplicantProcess1of2]
  generalize hr : (if c.ask.sm.conf.proto = .rsn then wpaSupplicantProcess1of2Rsn env f c.ask
    else wpaSupplicantProcess1of2Wpa cr f ver c.ask) = r
  have h1 : Hands [.igtk] c r.1 := by
    rw [← hr]
    split
    · rw [wpaSupplicantProcess1of2Rsn]
      split
      · exact .none _ rfl
      split
      · exact .none _ rfl
      split
      · exact .none _ rfl
      split
      · exact .none _ rfl
      · exact .after rfl (ieee80211wSetKeys_hands env _ c.ask)
    · refine .none _ ?_
      simp only [wpaSupplicantProcess1of2Wpa]
      split
      · rfl
      split
      · rfl
      split
      · split
        · rfl
        · exact keyKinds_emit _ rfl
      split
      · split
        · rfl
        · exact keyKinds_emit _ rfl
      · rfl
  obtain ⟨c1, gd⟩ := r
  have h2 : Hands [.igtk] c (c1.emit (.setState .groupHandshake)) :=
    h1.before (keyKinds_emit c1 rfl)
  cases gd with
  | none => exact (h2.before (keyKinds_emit _ (by rfl))).mono (by decide)
  | some gd =>
    refine (h2.trans (Hands.orDeauthenticate ?_) : Hands ([.igtk] ++ [.gtk]) c _)
    refine Hands.andThen [.gtk] [] (wpaSupplicantInstallGtk_hands env gd f.keyRsc _) fun _ => ?_
    refine Hands.andThen [] [] (.none _ (keyKinds_allocAndSend cr env _ ver _ _ _)) fun _ => ?_
    split
    · refine .none _ ?_
      dsimp only
      rw [keyKinds_emit, keyKinds_emit] <;> rfl
    · exact .none _ (keyKinds_wpaSupplicantKeyNegComplete _ _ _)

theorem PeerOut.noKey (o : Out) (h : PeerOut o) : NoKey o := by
  cases o with
  | setKey kind alg addr idx setTx seq key => exact h.elim
  | _ => rfl

theorem Msg1Out.noKey {conf : Config} (o : Out) (h : Msg1Out conf o) : NoKey o := by
  cases o with
  | setKey kind alg addr idx setTx seq key => exact h.elim
  | _ => rfl

theorem rxDispatch_hands {src : Addr} (f : EapolKey) (hpeer : rxPeer c.sm src = none) :
    Hands [.ptk, .gtk, .igtk] c (rxDispatch cr env src f c).1 ∨
      Hands [.igtk, .gtk] c (rxDispatch cr env src f c).1 := by
  simp only [rxDispatch, hpeer, Option.bind_none]
  split
  · left
    split
    · exact .none _ rfl
    split
    · exact wpaSupplicantProcess3of4_hands cr env f _ c
    obtain ⟨l, hl, hall⟩ := (wpaSupplicantProcess1of4_answered cr env f f.keyInfo.ver c).emitted
    refine .none _ ?_
    rw [hl, keyKinds_append, keyKinds_of_noKey fun o ho => Msg1Out.noKey o (hall o ho),
      List.append_nil]
  · right
    split
    · have h0 : Does KeptKeys PeerOut c c := .refl (.refl c.sm)
      exact .none _ ((peerkeyRxEapolSmk_does cr env src f _ h0).mono id PeerOut.noKey).keyKinds
    split
    · exact wpaSupplicantProcess1of2_hands cr env f _ c
    · exact .none _ rfl

theorem keyKinds_nodup {src : Addr} (data : Octets) (a : Ctx) (hout : a.out = [])
    (hpeer : rxPeer a.sm src = none) :
    (keyKinds (wpaSmRxEapol cr env src data a).1.out).Nodup := by
  rcases wpaSmRxEapol_cases cr env src a data with ⟨-, h⟩ | ⟨f, -, h⟩
  · rw [h, hout]
    exact List.nodup_nil
  rw [h]
  have hpeer' : rxPeer a.ask.sm src = none := hpeer
  have hout' : a.ask.out = [] := hout
  generalize a.ask = b at hpeer' hout' ⊢
  rcases rxKeyFrame_cases cr env src f b with h | ⟨-, c1, ok, hv, h⟩
  · rw [h, hout']
    exact List.nodup_nil
  have h1 : rxPeer c1.sm src = none ∧ keyKinds c1.out = [] := by
    rcases rxVerify_of_none hpeer' hv with ⟨-, rfl, -⟩ | ⟨-, -, hver⟩ | ⟨-, -, rfl⟩
    · exact ⟨hpeer', by rw [hout']; rfl⟩
    · refine ⟨?_, by rw [hver.out, hout']; rfl⟩
      rw [rxPeer, hver.peerkey]
      exact hpeer'
    · exact ⟨hpeer', by rw [hout']; rfl⟩
  obtain ⟨hpeer1, hk1⟩ := h1
  rcases h with h | ⟨-, -, c2, r, hd, h⟩
  · rw [h, hk1]
    exact List.nodup_nil
  obtain ⟨hsm, hout2, -⟩ := rxDecrypt_cases hd
  have hk2 : keyKinds c2.out = [] := by
    rcases hout2 with h2 | ⟨-, -, -, h2⟩
    · rw [h2, hk1]
    · rw [h2, keyKinds_append, hk1]
      rfl
  rcases h with ⟨-, h⟩ | ⟨g, -, h⟩
  · rw [h, hk2]
    exact List.nodup_nil
  rw [h]
  rw [← hsm] at hpeer1
  rcases rxDispatch_hands cr env g hpeer1 with ⟨l, hl, hout3⟩ | ⟨l, hl, hout3⟩
  · rw [hout3, hk2, List.nil_append]
    exact hl.nodup (by decide)
  · rw [hout3, hk2, List.nil_append]
    exact hl.nodup (by decide)

end Kinds

def handedIn (r : Record) : List ReplayCounter :=
  match r.event with
  | .rxEapol src data =>
    if rxPeer r.sm src = none ∧ (.ptk ∈ keyKinds r.out ∨ .gtk ∈ keyKinds r.out) then
      ((received data).map EapolKey.replayCounter).toList
    else []
  | _ => []

-- The keys the driver was given in a step: pairwise keys, and GTKs with their key index
def ptksIn (r : Record) : List Octets :=
  r.out.filterMap fun
    | .setKey .ptk _ _ _ _ _ key => some key
    | _ => none

def gtksIn (r : Record) : List (Octets × ℕ) :=
  r.out.filterMap fun
    | .setKey .gtk _ _ idx _ _ key => some (key, idx)
    | _ => none

-- No key is handed to the driver twice between two associations.
def NoReinstallation (tr : List Record) : Prop :=
  (since ptksIn tr).Nodup ∧ (since gtksIn tr).Nodup

section Runs

variable {cr : Crypto} {tr : List Record} {sm sm' : Sm} {e : Event} {out : List Out}

theorem mem_keyKinds {kind : KeyKind} (h : kind ∈ keyKinds out) :
    ∃ alg addr idx setTx seq key, .setKey kind alg addr idx setTx seq key ∈ out := by
  obtain ⟨o, ho, hk⟩ := List.mem_filterMap.mp h
  cases o with
  | setKey k alg addr idx setTx seq key =>
    obtain rfl := Option.some.inj hk
    exact ⟨alg, addr, idx, setTx, seq, key, ho⟩
  | _ => simp at hk

theorem handedIn_sublist (hs : Step cr sm e out sm') :
    (handedIn ⟨sm, e, out, sm'⟩).Sublist (acceptedIn ⟨sm, e, out, sm'⟩) := by
  cases e with
  | rxEapol src data =>
    obtain ⟨env, tick, hexec⟩ := hs
    have hc : (wpaSmRxEapol cr env src data ⟨sm, 0, []⟩).1 = ⟨sm', tick, out⟩ :=
      Option.some.inj hexec
    simp only [handedIn]
    split
    · rename_i h
      obtain ⟨hpeer, hkind⟩ := h
      have hset : ∃ kind alg addr idx setTx seq key, .setKey kind alg addr idx setTx seq key ∈
          (wpaSmRxEapol cr env src data ⟨sm, 0, []⟩).1.out := by
        rw [hc]
        rcases hkind with h | h
        · exact ⟨_, mem_keyKinds h⟩
        · exact ⟨_, mem_keyKinds h⟩
      obtain ⟨kind, alg, addr, idx, setTx, seq, key, hset⟩ := hset
      obtain ⟨f, hf, -, -, hha⟩ := handled_of_setKey hpeer hset
      have hacc := acceptedIn_of_handled data hpeer hha
      rw [hc] at hacc
      rw [hacc, hf]
      exact List.Sublist.refl _
    · exact List.nil_sublist _
  | _ => exact List.nil_sublist _

theorem handedSince_sublist (h : Run cr tr sm) : (since handedIn tr).Sublist (acceptedSince tr) := by
  induction h with
  | init conf => exact List.Sublist.refl _
  | @step tr sm sm' e out h hs ih =>
    cases e with
    | notifyAssoc bssid => exact List.Sublist.refl _
    | _ => exact (handedIn_sublist hs).append ih

-- The frames of the Authenticator are accepted in the order of their replay counters.
theorem acceptedSince_pairwise (h : Run cr tr sm) (hdriver : DriverCounts tr) :
    (acceptedSince tr).Pairwise fun newer older => older < newer := by
  induction h with
  | init conf => exact List.Pairwise.nil
  | @step tr sm sm' e out h hs ih =>
    have hbefore : DriverCounts tr := (List.forall_mem_cons.1 hdriver).2
    specialize ih hbefore
    cases e with
    | notifyAssoc bssid => exact List.Pairwise.nil
    | rxEapol src data =>
      obtain ⟨env, tick, hexec⟩ := hs
      have hc : (wpaSmRxEapol cr env src data ⟨sm, 0, []⟩).1 = ⟨sm', tick, out⟩ :=
        Option.some.inj hexec
      rw [acceptedSince, since]
      cases hpeer : rxPeer sm src with
      | some k => simpa [acceptedIn, hpeer, acceptedSince] using ih
      | none =>
        rcases wpaSmRxEapol_of_none cr env src data ⟨sm, 0, []⟩ hpeer with
          ⟨-, hout⟩ | ⟨f, -, hchecks, ⟨-, hun⟩ | ⟨-, hha⟩⟩
        · rw [hc] at hout
          simp only at hout
          subst hout
          simpa [acceptedIn, acceptedSince] using ih
        · have hacc := acceptedIn_of_unverified src data hun
          rw [hc] at hacc
          rw [hacc]
          exact ih
        · have hacc := acceptedIn_of_handled data hpeer hha
          rw [hc] at hacc
          rw [hacc]
          exact List.pairwise_cons.mpr ⟨(h.counted hbefore).lt hpeer hchecks, ih⟩
    | _ => simpa [acceptedSince, since, acceptedIn] using ih

-- Between two associations the frames of the Authenticator that hand a pairwise key or a GTK to the
-- driver have ever greater replay counters, where the driver does not set them back, and each hands over
-- a key of a kind at most once: no frame, and no repetition of a frame with its old counter, hands a key
-- over again.
theorem handover_once_per_frame (h : Run cr tr sm) :
    (DriverCounts tr → (since handedIn tr).Pairwise fun newer older => older < newer) ∧
      ∀ r ∈ tr, ∀ src data, r.event = .rxEapol src data → rxPeer r.sm src = none →
        (keyKinds r.out).Nodup := by
  refine ⟨fun hdriver => (acceptedSince_pairwise h hdriver).sublist (handedSince_sublist h), ?_⟩
  induction h with
  | init conf => simp
  | @step tr sm sm' e out h hs ih =>
    intro r hr src data hev hpeer
    rcases List.mem_cons.mp hr with rfl | hr
    · obtain ⟨env, tick, hexec⟩ := hs
      simp only at hev hpeer
      subst hev
      have hc : (wpaSmRxEapol cr env src data ⟨sm, 0, []⟩).1 = ⟨sm', tick, out⟩ :=
        Option.some.inj hexec
      have hnodup := keyKinds_nodup cr env data ⟨sm, 0, []⟩ rfl hpeer
      rw [hc] at hnodup
      exact hnodup
    · exact ih r hr src data hev hpeer

-- The replay counters of accepted frames are ever greater, and the last one is remembered.
theorem replay_counters_increase (h : Run cr tr sm) (hdriver : DriverCounts tr) :
    ((acceptedSince tr).Pairwise fun newer older => older < newer) ∧
      ∀ n ∈ acceptedSince tr, sm.rxReplayCounterSet = true ∧ n ≤ sm.rxReplayCounter :=
  ⟨acceptedSince_pairwise h hdriver, h.counted hdriver⟩

-- What is no frame neither gives a key to the driver nor uses one but for the MIC of a frame that is sent.
theorem keys_follow_frames (h : Run cr tr sm) :
    ∀ r ∈ tr, (∀ src data, r.event ≠ .rxEapol src data) → ∀ o ∈ r.out, PeerOut o := by
  induction h with
  | init conf => simp
  | step h hs ih =>
    intro r hr he
    obtain ⟨env, tick, hexec⟩ := hs
    rcases List.mem_cons.mp hr with rfl | hr
    · exact exec_peerOut cr env he hexec
    · exact ih r hr he

end Runs

-- Message 3/4 twice, the second time with a fresh replay counter
def sampleTwice : List Event := [.rxEapol 1 (sampleMsg3 2), .rxEapol 1 (sampleMsg3 3)]

set_option maxRecDepth 100000 in
theorem handover_once_per_frame_twice :
    since handedIn (sampleRun sampleTwice).1 = [3, 2] ∧
    (since handedIn (sampleRun sampleTwice).1).Pairwise fun newer older => older < newer := by
  have hrun : Run .transparent (sampleRun sampleTwice).1 (sampleRun sampleTwice).2 :=
    run_reached _ _ _ _
  exact ⟨rfl, (handover_once_per_frame hrun).1 (by decide)⟩

set_option maxRecDepth 100000 in
theorem replay_counters_increase_twice :
    acceptedSince (sampleRun sampleTwice).1 = [3, 2] ∧
      (acceptedSince (sampleRun sampleTwice).1).Pairwise fun newer older => older < newer :=
  ⟨rfl, (replay_counters_increase (run_reached .transparent _ _ _) (by decide)).1⟩

set_option maxRecDepth 100000 in
theorem keys_follow_frames_request :
    (sampleRun [.keyRequest false true]).1.head?.map Record.event = some (.keyRequest false true) ∧
      ∀ r ∈ (sampleRun [.keyRequest false true]).1, (∀ src data, r.event ≠ .rxEapol src data) →
        ∀ o ∈ r.out, PeerOut o :=
  ⟨rfl, keys_follow_frames (run_reached .transparent _ _ _)⟩

-- The second message 3/4 hands the same pairwise key to the driver again, and the same GTK.
set_option maxRecDepth 100000 in
theorem reinstallation_on_retransmission :
    Run .transparent (sampleRun sampleTwice).1 (sampleRun sampleTwice).2 ∧
      since ptksIn (sampleRun sampleTwice).1 = [List.replicate 16 8, List.replicate 16 8] ∧
      since gtksIn (sampleRun sampleTwice).1 =
        [(List.replicate 16 9, 1), (List.replicate 16 9, 1)] ∧
      ¬ NoReinstallation (sampleRun sampleTwice).1 := by
  have hptk : since ptksIn (sampleRun sampleTwice).1 =
      [List.replicate 16 8, List.replicate 16 8] := by decide
  refine ⟨run_reached _ _ _ _, hptk, by decide, fun h => ?_⟩
  have hnodup := h.1
  rw [hptk] at hnodup
  simp at hnodup

end WpaSupplicant.Supplicant
