import WpaSupplicant.Authenticator.Secured

namespace WpaSupplicant.Authenticator

open Lib.Octets Lib.Window Lib.Effect Lib.Loop KeyData

structure Port (D : ℕ → Evidence) (W : Auth) : Prop where
  sta : ∀ i sm, W.sta i = some sm → Waits (D i) sm
  shut : ∀ o ∈ W.out, ¬ Opens o

-- The same within an event, where station `i` need not wait
structure At (D : ℕ → Evidence) (i : ℕ) (P : Sta → Prop) (W : Auth) : Prop where
  resting : Resting W
  other : ∀ j sm, j ≠ i → W.sta j = some sm → Waits (D j) sm
  self : ∀ sm, W.sta i = some sm → P sm
  shut : ∀ o ∈ W.out, ¬ Opens o

section At

variable {cr : Crypto} {env : Env} {D : ℕ → Evidence} {i : ℕ} {P Q : Sta → Prop} {E : Evidence}
  {W W' : Auth}

theorem Port.at (h : Port D W) (hrest : Resting W) (i : ℕ) : At D i (Waits (D i)) W :=
  ⟨hrest, fun j sm _ hj => h.sta j sm hj, h.sta i, h.shut⟩

theorem At.port (h : At D i (Waits (D i)) W) : Port D W := by
  refine ⟨fun j sm hj => ?_, h.shut⟩
  by_cases hji : j = i
  · subst hji
    exact h.self sm hj
  · exact h.other j sm hji hj

theorem At.mono (h : At D i P W) (hPQ : ∀ sm, P sm → Q sm) : At D i Q W :=
  ⟨h.resting, h.other, fun sm hi => hPQ sm (h.self sm hi), h.shut⟩

theorem shut_append {out out' : List Out} (h : ∀ o ∈ out, ¬ Opens o)
    (hout : ∃ l, out' = out ++ l ∧ ∀ o ∈ l, Quiet o) : ∀ o ∈ out', ¬ Opens o := by
  obtain ⟨l, rfl, hquiet⟩ := hout
  intro o ho
  rcases List.mem_append.mp ho with ho | ho
  · exact h o ho
  · exact (hquiet o ho).not_opens

theorem At.put (h : At D i P W) {sm : Sta} {c : Ctx} (hi : W.sta i = some sm)
    (hharm : Harmless (W.ctx sm) c) (hQ : Q c.sm) : At D i Q (W.put i sm.group c) := by
  refine ⟨put_resting h.resting hi hharm, fun j smj hji hj => ?_, fun sm' hsm' => ?_,
    shut_append h.shut hharm.emitted⟩
  · exact h.other j smj hji (by simpa [Auth.put, hji] using hj)
  · obtain rfl : c.sm = sm' := by simpa [Auth.put] using hsm'
    exact hQ

theorem At.withSta (h : At D i P W) (f : Ctx → Ctx) (hharm : ∀ c, Harmless c (f c))
    (hf : ∀ c, P c.sm → Q (f c).sm) : At D i Q (W.withSta i f) := by
  cases hi : W.sta i with
  | none =>
    rw [Auth.withSta_none hi]
    exact ⟨h.resting, h.other, fun sm hsm => by simp [hi] at hsm, h.shut⟩
  | some sm =>
    rw [Auth.withSta_some hi]
    exact h.put hi (hharm _) (hf _ (h.self sm hi))

theorem At.modSta (h : At D i P W) (f : Sta → Sta) (hloop : ∀ sm, (f sm).inStepLoop = sm.inStepLoop)
    (hf : ∀ sm, P sm → Q (f sm)) : At D i Q (W.modSta i f) := by
  refine ⟨modSta_resting h.resting i f hloop, fun j smj hji hj => ?_, fun sm' hsm' => ?_, h.shut⟩
  · exact h.other j smj hji (by simpa [Auth.modSta, hji] using hj)
  · simp only [Auth.modSta, Function.update_self] at hsm'
    obtain ⟨sm, hi, rfl⟩ := Option.map_eq_some_iff.mp hsm'
    exact hf sm (h.self sm hi)

variable {fuel : ℕ} {event : WpaEvent}

theorem At.step (h : At D i (Stepping E) W) (hs : wpaSmStep cr env fuel W i = some W') :
    At D i (Waits E) W' := by
  cases hi : W.sta i with
  | none =>
    obtain rfl := wpaSmStep_none hi hs
    exact ⟨h.resting, h.other, fun sm hsm => by simp [hi] at hsm, h.shut⟩
  | some sm =>
    obtain ⟨hrest, hframe⟩ := wpaSmStep_resting h.resting hs
    obtain ⟨sm', hi', hwaits, hout⟩ := wpaSmStep_waits h.resting hi (h.self sm hi) hs
    refine ⟨hrest, fun j smj hji hj => ?_, fun sm1 hsm1 => ?_, shut_append h.shut hout⟩
    · exact h.other j smj hji ((hframe.other j hji).symm.trans hj)
    · exact Option.some.inj (hi'.symm.trans hsm1) ▸ hwaits

-- A station that is being initialised gives up its PTK in every round.
def Initialising (E : Evidence) (i : ℕ) (out : List Out) (W : Auth) : Prop :=
  ∃ sm, W.sta i = some sm ∧ sm.init = true ∧ sm.keyFrame = false ∧
    (∀ ie, sm.wpaIe = some ie → E.ie ie) ∧ ∃ l, W.out = out ++ l ∧ ∀ o ∈ l, Quiet o

theorem ptkInitialize_unmarked (c : Ctx) : (ptkInitialize c).sm.gUpdateStationKeys = false := by
  simp only [ptkInitialize]
  split
  · rfl
  · rfl

theorem roundFn_init {ap : Ap} {c : Ctx} (hinit : c.sm.init = true) :
    Goes c.unmarked (roundFn cr env ap c) ∧ (roundFn cr env ap c).sm.ptkValid = false ∧
      (roundFn cr env ap c).sm.gUpdateStationKeys = false := by
  have hstep : ptkStep cr env ap c.unmarked = ptkInitialize c.unmarked := by
    have hinit0 : c.unmarked.sm.init = true := hinit
    simp only [ptkStep, hinit0, if_true]
  have hgoes := ptkGroupStep_goes cr env ap (ptkStep cr env ap c.unmarked)
  rw [roundFn]
  rw [hstep] at hgoes ⊢
  refine ⟨(ptkInitialize_goes (.refl _)).trans hgoes, ?_, ?_⟩
  · exact takenBack (fun hv => (hgoes.rel.1.valid hv).1) (ptkInitialize_entered c.unmarked).2
  · exact takenBack hgoes.rel.2.pending (ptkInitialize_unmarked c.unmarked)

theorem Initialising.round {out : List Out} (W : Auth) (h : Initialising E i out W) :
    Initialising E i out (smRound cr env i W) ∧
      ∀ sm, (smRound cr env i W).sta i = some sm → sm.ptkValid = false := by
  obtain ⟨sm, hi, hinit, hframe, hie, l, hl, hquiet⟩ := h
  obtain ⟨hsta, l2, hl2, hquiet2⟩ := @smRound_some cr env W i sm hi
  have hinit0 : (W.unmarked.ctx sm).sm.init = true := hinit
  obtain ⟨hgoes, hvalid, -⟩ := @roundFn_init cr env W.ap _ hinit0
  obtain ⟨l1, hl1, hquiet1⟩ := hgoes.emitted
  have hi1 : (smRound cr env i W).sta i = some (roundFn cr env W.ap (W.unmarked.ctx sm)).sm := by
    simp [hsta]
  have hwpaIe : (roundFn cr env W.ap (W.unmarked.ctx sm)).sm.wpaIe = sm.wpaIe :=
    congrArg StaFixed.wpaIe hgoes.rel.1.fixed
  refine ⟨⟨_, hi1, (congrArg StaFixed.init hgoes.rel.1.fixed).trans hinit,
    hgoes.rel.1.keyFrame hframe, by rw [hwpaIe]; exact hie, l ++ l1 ++ l2, ?_, ?_⟩, ?_⟩
  · rw [hl2, hl1]
    change W.out ++ l1 ++ l2 = _
    simp [hl]
  · intro o ho
    simp only [List.mem_append] at ho
    rcases ho with (ho | ho) | ho
    · exact hquiet o ho
    · exact hquiet1 o ho
    · exact hquiet2 o ho
  · intro sm1 hsm1
    exact Option.some.inj (hi1.symm.trans hsm1) ▸ hvalid

theorem startSta_at (h : At D i (Unframed E) W) (hs : startSta cr env fuel W i = some W') :
    At D i (Stepping E.noPtk) W' := by
  simp only [startSta, Option.bind_eq_bind] at hs
  obtain ⟨W1, h1, h2⟩ := Option.bind_eq_some_iff.mp hs
  obtain rfl := Option.some.inj h2
  have h0 : At D i (fun sm => sm.init = true ∧ sm.keyFrame = false ∧
      ∀ ie, sm.wpaIe = some ie → E.ie ie)
      (W.modSta i fun sm => { sm with started := true, init := true }) :=
    h.modSta _ (fun _ => rfl) fun sm hsm => ⟨rfl, hsm.frame, hsm.ie⟩
  generalize (W.modSta i fun sm => { sm with started := true, init := true }) = W0 at h0 h1
  have hafter : At D i (fun sm => sm.keyFrame = false ∧ (∀ ie, sm.wpaIe = some ie → E.ie ie) ∧
      sm.ptkValid = false) W1 := by
    cases hi : W0.sta i with
    | none =>
      obtain rfl := wpaSmStep_none hi h1
      exact ⟨h0.resting, h0.other, fun sm hsm => by simp [hi] at hsm, h0.shut⟩
    | some sm =>
      obtain ⟨hrest, hframe⟩ := wpaSmStep_resting h0.resting h1
      obtain ⟨V, hrounds, rfl⟩ := wpaSmStep_rounds h0.resting.noRekey h0.resting.idle hi h1
      have hi0 : (W0.modSta i (Sta.looping true)).sta i = some (sm.looping true) := by
        simp [Auth.modSta_some hi]
      obtain ⟨hinit, hkey, hie⟩ := h0.self sm hi
      obtain ⟨⟨sm1, hi1, -, hkey1, hie1, hout⟩, hvalid⟩ :=
        hrounds.rule (I := Initialising E i W0.out)
          (T := fun V => ∀ sm, V.sta i = some sm → sm.ptkValid = false) Initialising.round
          ⟨_, hi0, hinit, hkey, hie, [], by simp [Auth.modSta], by simp⟩
      refine ⟨hrest, fun j smj hji hj => ?_, fun sm2 hsm2 => ?_, shut_append h0.shut hout⟩
      · exact h0.other j smj hji ((hframe.other j hji).symm.trans hj)
      · obtain rfl : sm1.looping false = sm2 := by simpa [Auth.modSta_some hi1] using hsm2
        exact ⟨hkey1, hie1, hvalid sm1 hi1⟩
  refine hafter.modSta _ (fun _ => rfl) fun sm hsm => ?_
  exact ⟨rfl, hsm.1, fun hv => absurd (hsm.2.2.symm.trans hv) (by simp), hsm.2.1⟩

theorem reauthenticate_unframed (c : Ctx) (h : Unframed E c.sm) : Unframed E (reauthenticate c).sm := by
  simp only [reauthenticate]
  split
  · exact ⟨h.init, h.frame, h.ie⟩
  · exact ⟨h.init, h.frame, h.ie⟩

theorem smEventReauth_at (h : At D i (Unframed E) W) (hs : smEventReauth cr env fuel W i = some W') :
    At D i (Unframed E) W' := by
  rw [smEventReauth] at hs
  split at hs
  · exact Option.some.inj hs ▸ h
  split at hs
  · exact (startSta_at h hs).mono fun sm hsm => ⟨hsm.init, hsm.frame, hsm.ie⟩
  · refine Option.some.inj hs ▸ h.withSta _ reauthenticate_harmless fun c hc => ?_
    exact reauthenticate_unframed c hc

theorem smEventRequest_at (h : At D i (Unframed E) W)
    (hs : smEventRequest cr env fuel W i event = some W') : At D i (Unframed E) W' := by
  have hdeauth : At D i (Unframed E)
      (W.modSta i fun sm => { sm with deauthenticationRequest := true }) :=
    h.modSta _ (fun _ => rfl) fun sm hsm => ⟨hsm.init, hsm.frame, hsm.ie⟩
  cases event with
  | auth => exact Option.some.inj hs ▸ h
  | assoc => exact Option.some.inj hs ▸ h
  | deauth => exact Option.some.inj hs ▸ hdeauth
  | disassoc => exact Option.some.inj hs ▸ hdeauth
  | reauth => exact smEventReauth_at h hs
  | reauthEapol => exact smEventReauth_at h hs

theorem wpaRemovePtk_unframed (c : Ctx) (h : Unframed E c.sm) : Stepping E.noPtk (wpaRemovePtk c).sm :=
  Unframed.drop ⟨h.init, h.frame, h.ie⟩ rfl

theorem smEventRemove_unframed (hevent : event ≠ .auth) (c : Ctx) (h : Unframed E c.sm) :
    Stepping E.noPtk (smEventRemove event c).sm := by
  simp only [smEventRemove, hevent, decide_false, Bool.and_false, Bool.false_eq_true, if_false]
  split
  · exact Unframed.drop ⟨h.init, h.frame, h.ie⟩ rfl
  · exact Unframed.drop ⟨h.init, h.frame, h.ie⟩ rfl

theorem wpaAuthSmEvent_at (hevent : event ≠ .auth) (h : At D i (Waits E) W)
    (hs : wpaAuthSmEvent cr env fuel W i event = some W') : At D i (Waits E.noPtk) W' := by
  simp only [wpaAuthSmEvent, Option.bind_eq_bind] at hs
  obtain ⟨W1, h1, h2⟩ := Option.bind_eq_some_iff.mp hs
  have hat := smEventRequest_at (h.mono fun sm hsm => hsm.stepping.unframed) h1
  exact (hat.withSta _ (smEventRemove_harmless event) (smEventRemove_unframed hevent)).step h2

theorem wpaAuthSmEvent_auth_at (h : At D i (Waits E) W)
    (hs : wpaAuthSmEvent cr env fuel W i .auth = some W') : At D i (Waits E) W' := by
  simp only [wpaAuthSmEvent, Option.bind_eq_bind] at hs
  obtain ⟨W1, h1, h2⟩ := Option.bind_eq_some_iff.mp hs
  obtain rfl := Option.some.inj h1
  refine At.step (h.withSta _ (smEventRemove_harmless .auth) fun c hc => ?_) h2
  simp only [smEventRemove]
  split
  · exact hc.stepping
  have hstep := wpaRemovePtk_unframed { c with sm := { c.sm with ptkValid := false, ptk := .zero } }
    ⟨hc.stepping.init, hc.stepping.frame, hc.stepping.ie⟩
  exact hstep.mono E.noPtk_le

theorem wpaAuthStaAssociated_at (h : At D i (Waits E.noPtk) W)
    (hs : wpaAuthStaAssociated cr env fuel W i = some W') : At D i (Waits E.noPtk) W' := by
  simp only [wpaAuthStaAssociated] at hs
  split at hs
  · exact Option.some.inj hs ▸ h
  split at hs
  · exact Option.some.inj hs ▸ h
  split at hs
  · refine At.step ?_ hs
    refine h.modSta _ (fun _ => rfl) fun sm hsm => ?_
    have hun := hsm.stepping.unframed
    exact Unframed.drop ⟨hun.init, hun.frame, hun.ie⟩ hsm.noPtk
  · simp only [Option.bind_eq_bind] at hs
    obtain ⟨W1, h1, h2⟩ := Option.bind_eq_some_iff.mp hs
    exact (startSta_at (h.mono fun sm hsm => hsm.stepping.unframed) h1).step h2

theorem wpaAuthStaSetVlan_at (h : At D i (Waits E) W) (vlanId : ℕ) :
    At D i (Waits E) (wpaAuthStaSetVlan cr env W i vlanId) := by
  have hrest := @wpaAuthStaSetVlan_resting cr env W h.resting i vlanId
  have hmove (V : Auth) (g : ℕ) (hsta : V.sta = W.sta) (hshut : ∀ o ∈ V.out, ¬ Opens o)
      (hr : Resting (V.modSta i fun sm => { sm with group := g })) :
      At D i (Waits E) (V.modSta i fun sm => { sm with group := g }) := by
    refine ⟨hr, fun j smj hji hj => ?_, fun sm' hsm' => ?_, hshut⟩
    · refine h.other j smj hji ?_
      simpa [Auth.modSta, hji, hsta] using hj
    · simp only [Auth.modSta, Function.update_self, hsta] at hsm'
      obtain ⟨sm, hi, rfl⟩ := Option.map_eq_some_iff.mp hsm'
      exact (h.self sm hi).congr rfl
  rcases @wpaAuthStaSetVlan_cases cr env W i vlanId with
    ⟨g, -, heq⟩ | ⟨-, -, heq⟩ | ⟨c, -, hinit, heq⟩
  · rw [heq] at hrest ⊢
    exact hmove W g rfl h.shut hrest
  · rwa [heq]
  rw [heq] at hrest ⊢
  obtain ⟨-, -, -, -, hemitted⟩ := wpaGroupInit_some hinit
  exact hmove _ _ rfl (shut_append h.shut hemitted) hrest

-- What `handle_assoc_cb` does between the event and its end leaves the station without a PTK.
theorem newStations_at (l : List NewStation) (h : At D i (Waits E.noPtk) W)
    (hs : l.foldlM (newStation cr env fuel i) W = some W') : At D i (Waits E.noPtk) W' := by
  refine foldlM_rule (fun V x V' hV hV' => ?_) l h hs
  cases x with
  | bindVlan vlanId => exact Option.some.inj hV' ▸ wpaAuthStaSetVlan_at hV vlanId
  | reauthEapol =>
    exact wpaAuthSmEvent_at (by simp) (hV.mono fun sm hsm => hsm.mono E.noPtk_le) hV'

theorem handleAssocCb_at {between : List NewStation} {last : NewAssoc} (h : At D i (Waits E) W)
    (hs : handleAssocCb cr env fuel W i between last = some W') : At D i (Waits E.noPtk) W' := by
  simp only [handleAssocCb, Option.bind_eq_bind] at hs
  obtain ⟨W1, h1, hs⟩ := Option.bind_eq_some_iff.mp hs
  obtain ⟨W2, h2, hs⟩ := Option.bind_eq_some_iff.mp hs
  have hat := newStations_at between (wpaAuthSmEvent_at (by simp) h h1) h2
  cases last with
  | associated => exact wpaAuthStaAssociated_at hat hs
  | reassociated =>
    exact wpaAuthSmEvent_at (by simp) (hat.mono fun sm hsm => hsm.mono E.noPtk_le) hs
  | rejected => exact Option.some.inj hs ▸ hat

end At

section Events

variable {cr : Crypto} {env : Env} {D : ℕ → Evidence} {W W' : Auth}

theorem Port.move (h : Port D W) (hmove : GroupsMove W W') : Port D W' :=
  ⟨fun j sm hj => h.sta j sm (by rwa [hmove.sta] at hj), shut_append h.shut hmove.emitted⟩

theorem Port.modSta (h : Port D W) (i : ℕ) (f : Sta → Sta)
    (hf : ∀ sm, (f sm).portFields = sm.portFields) : Port D (W.modSta i f) := by
  refine ⟨fun j smj hj => ?_, h.shut⟩
  by_cases hji : j = i
  · subst hji
    simp only [Auth.modSta, Function.update_self] at hj
    obtain ⟨sm, hsm, rfl⟩ := Option.map_eq_some_iff.mp hj
    exact (h.sta j sm hsm).congr (hf sm)
  · exact h.sta j smj (by simpa [Auth.modSta, hji] using hj)

-- A frame that is sent changes the replay counters of the station alone.
theorem wpaSendEapolRaw_portFields (ap : Ap) (keyInfo : KeyInfo) (nonce : Option Nonce)
    (kde : Octets) (encr : Bool) (c : Ctx) :
    (wpaSendEapolRaw cr env ap keyInfo none nonce (some kde) 0 encr c).sm.portFields =
      c.sm.portFields := by
  rcases wpaSendEapolRaw_cases cr env ap keyInfo none nonce (some kde) 0 encr c with
    ⟨-, heq⟩ | ⟨-, grp, tick, out, heq, -, -⟩
  · rw [heq]
    rfl
  · rw [heq]
    rfl

theorem port_steady : Steady cr env fun W => Resting W ∧ Port D W where
  groups V V' hmove hfixed h := ⟨(@resting_closed cr env).groups V V' hmove hfixed h.1,
    h.2.move hmove⟩
  send V i keyInfo nonce kde encr hbits h := by
    have hat := (h.2.at h.1 i).withSta _
      (fun c => @wpaSendEapolRaw_harmless cr env V.ap keyInfo nonce kde encr hbits c)
      fun c hc => hc.congr (wpaSendEapolRaw_portFields V.ap keyInfo nonce kde encr c)
    exact ⟨hat.resting, hat.port⟩

theorem Port.rekeyGtk {fuel : ℕ} (h : Port D W) (hrest : Resting W)
    (hs : wpaRekeyGtk cr env fuel W = some W') : Port D W' := by
  refine (wpaRekeyGtk_rule (fun _ _ hmove hV => hV.move hmove) ?_ ?_ hrest h hs).1
  · exact fun V i b hV => hV.modSta i _ fun _ => rfl
  · intro V i V' hrestV hV hV'
    exact ((hV.at hrestV i).mono fun sm hsm => hsm.stepping).step hV' |>.port

end Events

section Receive

variable {cr : Crypto} {env : Env} {D : ℕ → Evidence} {E : Evidence} {W W' : Auth} {i : ℕ} {sm : Sta}
  {f : EapolKey}

theorem Waits.setMic (h : Waits E sm) (b : Bool)
    (hb : sm.ptkState = .ptkcalcnegotiating → b = false) : Waits E { sm with micVerified := b } := by
  refine ⟨⟨h.stepping.init, h.stepping.frame, fun hv => ?_, h.stepping.ie⟩, h.disconnect,
    h.deauthentication, h.authentication, h.reAuthentication, h.request, hb⟩
  have hsec := h.stepping.valid hv
  exact ⟨hsec.derived, hsec.reAuthentication, hsec.request, .inl (h.secured hv)⟩

theorem Waits.micChecked (h : Waits E sm) : Waits E sm.micChecked := by
  rw [Sta.micChecked]
  split
  · rename_i hv
    refine (h.setMic true fun hst => ?_).congr rfl
    have hsec := h.secured hv
    simp [hst, PtkState.secured] at hsec
  · exact h.setMic false fun _ => rfl

theorem counted_portFields (sm : Sta) (f : EapolKey) : (sm.counted f).portFields = sm.portFields := by
  rw [Sta.counted]
  split
  · rfl
  · rfl

theorem receivePre_waits {ap : Ap} (c : Ctx) (h : Waits E c.sm) :
    Waits E (receivePre cr ap f c).1.sm := by
  cases hpre : receivePre cr ap f c with
  | mk c' ok =>
    cases ok with
    | true =>
      obtain ⟨-, rfl⟩ := receivePre_true hpre
      exact h.micChecked.congr (counted_portFields _ f)
    | false =>
      obtain ⟨hsm, -, -, -⟩ := receivePre_false hpre
      rcases hsm with hsm | hsm | hsm
      · exact hsm ▸ h
      · exact hsm ▸ h.setMic false fun _ => rfl
      · exact hsm ▸ h.micChecked

theorem checked_at (h : At D i (Waits E) W) : At D i (Waits E) (checked cr W i f) := by
  rw [checked, withStaCheck_fst]
  exact h.withSta _ (receivePre_harmless W.ap f) receivePre_waits

theorem Waits.requestNewPtk (h : Waits E sm) (hv : sm.ptkValid = true) :
    Waits E (wpaRequestNewPtk sm) := by
  have hsec := h.secured hv
  refine ⟨⟨h.stepping.init, h.stepping.frame, fun hv' => by simp [wpaRequestNewPtk] at hv',
    h.stepping.ie⟩, h.disconnect, h.deauthentication, h.authentication, h.reAuthentication,
    fun _ => ⟨?_, ?_⟩, h.calculating⟩
  · intro hst
    have hst : sm.ptkState = .ptkstart := hst
    simp [hst, PtkState.secured] at hsec
  · intro hst
    have hst : sm.ptkState = .ptkcalcnegotiating := hst
    simp [hst, PtkState.secured] at hsec

theorem counted_ptkValid (sm : Sta) (f : EapolKey) :
    (sm.micChecked.counted f).ptkValid = sm.ptkValid := by
  have hcounted : (sm.micChecked.counted f).ptkValid = sm.micChecked.ptkValid :=
    congrArg PortFields.ptkValid (counted_portFields sm.micChecked f)
  rw [hcounted, Sta.micChecked]
  split
  · rfl
  · rfl

variable {fuel : ℕ} {U : Auth}

-- What `wpa_receive` does with an accepted frame before the machines run
theorem receiveAct_port {V : Auth} {go : Bool} (hrest : Resting W) (h : Port D W)
    (hacc : acceptedBy cr W i f = true)
    (hact : receiveAct cr env fuel (checked cr W i f) i f = some (V, go)) : Resting V ∧ Port D V := by
  have hat := @checked_at cr D (D i) W i f (h.at hrest i)
  obtain ⟨sm, hi, haccepted, hchecked⟩ := acceptedBy_true hacc
  refine receiveAct_steady (port_steady (D := D)) ⟨hat.resting, hat.port⟩ i f ?_ ?_ hact
  · intro hask V hV hIV
    have hreq : f.keyInfo.request = true := by
      simp only [asksNewPtk, Bool.and_eq_true] at hask
      exact hask.1.1
    have hvalid : (sm.micChecked.counted f).ptkValid = true :=
      (counted_ptkValid sm f).trans (haccepted.request hreq)
    have hiV : V.sta i = some (sm.micChecked.counted f) := by
      rw [hV, hchecked]
      simp [Auth.modSta, hi]
    have hatV : At D i (Waits (D i)) (V.modSta i wpaRequestNewPtk) := by
      refine ⟨modSta_resting hIV.1 i _ fun _ => rfl, fun j smj hji hj => ?_, fun sm' hsm' => ?_,
        hIV.2.shut⟩
      · exact hIV.2.sta j smj (by simpa [Auth.modSta, hji] using hj)
      · obtain rfl : wpaRequestNewPtk (sm.micChecked.counted f) = sm' := by
          simpa [Auth.modSta, hiV] using hsm'
        exact (hIV.2.sta i _ hiV).requestNewPtk hvalid
    exact ⟨hatV.resting, hatV.port⟩
  · intro _ V' hV'
    exact ⟨wpaRekeyGtk_resting hat.resting hV', hat.port.rekeyGtk hat.resting hV'⟩

theorem Waits.posted (h : Waits E sm) (hf : f.keyInfo.request = true ∨ f.keyInfo.keyType = false) :
    Stepping E (sm.posted f) := by
  have hframe : (sm.posted f).keyFrame = false := by
    rcases hf with hf | hf
    · simp [Sta.keyFrame, Sta.posted, hf]
    · simp [Sta.keyFrame, Sta.posted, hf]
  refine ⟨h.stepping.init, hframe, fun hv => ?_, h.stepping.ie⟩
  have hsec := h.stepping.valid hv
  exact ⟨hsec.derived, hsec.reAuthentication, hsec.request, hsec.state⟩

theorem withStaCheck_post {V : Auth} {ok : Bool} (h : withStaCheck V i (receivePost env f) = (U, ok))
    (hi : V.sta i = some sm) :
    (ok = false ∧ U = V.put i sm.group
      { (V.ctx sm).ask with sm := { sm with lastRxEapolKey := none } }) ∨
    (ok = true ∧ U = V.put i sm.group { (V.ctx sm).ask with sm := sm.posted f }) := by
  have hU : V.withSta i (fun c => (receivePost env f c).1) = U := by
    rw [← withStaCheck_fst, h]
  have hok : (receivePost env f (V.ctx sm)).2 = ok := by
    have := congrArg Prod.snd h
    rwa [withStaCheck, hi] at this
  rw [Auth.withSta_some hi] at hU
  rcases receivePost_cases env f (V.ctx sm) with hpost | hpost
  · rw [hpost] at hU hok
    exact .inl ⟨hok.symm, hU.symm⟩
  · rw [hpost] at hU hok
    exact .inr ⟨hok.symm, hU.symm⟩

-- The machines run on an accepted frame of the pairwise handshake, from the state `U` on.
structure Taken (cr : Crypto) (env : Env) (fuel : ℕ) (W : Auth) (i : ℕ) (f : EapolKey) (sm : Sta)
    (U W' : Auth) : Prop where
  msg : msgOf f = .pairwise2 ∨ msgOf f = .pairwise4
  sta : W.sta i = some sm
  accepted : Accepted cr W.ap f (W.ctx sm)
  resting : Resting U
  ap : U.ap = W.ap
  out : U.out = W.out
  other : ∀ j, j ≠ i → U.sta j = W.sta j
  self : U.sta i = some ((sm.micChecked.counted f).posted f)
  step : wpaSmStep cr env fuel U i = some W'

theorem msgOf_noRequest (hreq : f.keyInfo.request = false) :
    msgOf f = .smkM3 ∨ f.keyInfo.keyType = false ∨ msgOf f = .pairwise2 ∨ msgOf f = .pairwise4 := by
  by_cases hsmk : f.keyInfo.smkMessage = true
  · exact .inl (by simp [msgOf, hsmk, hreq])
  by_cases hkey : f.keyInfo.keyType = true
  · by_cases hlen : f.keyDataLength = 0
    · exact .inr (.inr (.inr (by simp [msgOf, hsmk, hreq, hkey, hlen])))
    · exact .inr (.inr (.inl (by simpa [msgOf, hsmk, hreq, hkey] using hlen)))
  · exact .inr (.inl (by simpa using hkey))

theorem ask_harmless {c : Ctx} (sm : Sta) (h : sm.fields = c.sm.fields) :
    Harmless c { c.ask with sm := sm } :=
  (Harmless.of_fields sm h).trans (.of_goes (Goes.refl _).ask rfl)

-- A frame of the pairwise handshake goes to the machines without further ado.
theorem receiveAct_pairwise {V : Auth} (hmsg : msgOf f = .pairwise2 ∨ msgOf f = .pairwise4)
    (hact : receiveAct cr env fuel W i f = some (V, true)) : V = W := by
  have hreq := (msgOf_pairwise hmsg).1
  rw [receiveAct, hreq] at hact
  rcases hmsg with hmsg | hmsg
  · simp only [hmsg, Bool.false_eq_true, if_false] at hact
    exact (congrArg Prod.fst (Option.some.inj hact)).symm
  · simp only [hmsg, Bool.false_eq_true, if_false] at hact
    exact (congrArg Prod.fst (Option.some.inj hact)).symm

theorem taken_of_stepped (hrest : Resting W) (hmsg : msgOf f = .pairwise2 ∨ msgOf f = .pairwise4)
    (hacc : acceptedBy cr W i f = true)
    (hpost : withStaCheck (checked cr W i f) i (receivePost env f) = (U, true))
    (hstep : wpaSmStep cr env fuel U i = some W') : ∃ sm, Taken cr env fuel W i f sm U W' := by
  obtain ⟨sm, hi, haccepted, hchecked⟩ := acceptedBy_true hacc
  have hrestV : Resting (checked cr W i f) := by
    rw [checked, withStaCheck_fst]
    exact (@resting_closed cr env).withSta hrest i _ (receivePre_harmless W.ap f)
  rw [hchecked] at hpost hrestV
  have hiV : (W.modSta i fun sm => sm.micChecked.counted f).sta i =
      some (sm.micChecked.counted f) := by simp [Auth.modSta, hi]
  have hother (j : ℕ) (hj : j ≠ i) :
      (W.modSta i fun sm => sm.micChecked.counted f).sta j = W.sta j := by simp [Auth.modSta, hj]
  rcases withStaCheck_post hpost hiV with ⟨hok, -⟩ | ⟨-, rfl⟩
  · simp at hok
  refine ⟨sm, hmsg, hi, haccepted, put_resting hrestV hiV (ask_harmless _ rfl), rfl, rfl,
    fun j hj => ?_, by simp [Auth.put], hstep⟩
  rw [← hother j hj]
  simp [Auth.put, hj]

-- Only a frame of the pairwise handshake can be taken by the machine of that handshake.
theorem Received.port (hrest : Resting W) (h : Port D W) (hrec : Received cr env fuel W i f W') :
    Port D W' ∨ ∃ sm U, Taken cr env fuel W i f sm U W' := by
  cases hrec with
  | rejected hacc => exact .inl (checked_at (h.at hrest i)).port
  | handled hacc hact => exact .inl (receiveAct_port hrest h hacc hact).2
  | @noMemory V _ hacc hact hpost =>
    obtain ⟨hrestV, hV⟩ := receiveAct_port hrest h hacc hact
    cases hi : V.sta i with
    | none =>
      obtain rfl : V = W' := by simpa [withStaCheck, hi] using hpost
      exact .inl hV
    | some smV =>
      rcases withStaCheck_post hpost hi with ⟨-, rfl⟩ | ⟨hok, -⟩
      · refine .inl (At.port (i := i) ?_)
        exact (hV.at hrestV i).put hi (ask_harmless _ rfl) ((hV.sta i smV hi).congr rfl)
      · simp at hok
  | @stepped V U _ hacc hact hpost hstep =>
    obtain ⟨hrestV, hV⟩ := receiveAct_port hrest h hacc hact
    by_cases hf : f.keyInfo.request = true ∨ f.keyInfo.keyType = false
    · cases hi : V.sta i with
      | none => simp [withStaCheck, hi] at hpost
      | some smV =>
        rcases withStaCheck_post hpost hi with ⟨hok, -⟩ | ⟨-, rfl⟩
        · simp at hok
        · refine .inl (At.port (i := i) (At.step ?_ hstep))
          exact (hV.at hrestV i).put hi (ask_harmless _ rfl) ((hV.sta i smV hi).posted hf)
    · simp only [not_or, Bool.not_eq_true, Bool.not_eq_false] at hf
      rcases msgOf_noRequest hf.1 with hmsg | hkey | hmsg
      · rw [receiveAct, hf.1] at hact
        simp [hmsg] at hact
      · simp [hf.2] at hkey
      obtain rfl := receiveAct_pairwise hmsg hact
      obtain ⟨sm, htaken⟩ := taken_of_stepped hrest hmsg hacc hpost hstep
      exact .inr ⟨sm, U, htaken⟩

-- A frame of the pairwise handshake as `wpa_receive` accepts it: message 4/4
structure Message4 (cr : Crypto) (sm : Sta) (f : EapolKey) : Prop where
  ack : f.keyInfo.ack = false
  smkMessage : f.keyInfo.smkMessage = false
  request : f.keyInfo.request = false
  pairwise : f.keyInfo.keyType = true
  empty : f.keyDataLength = 0
  state : sm.ptkState = .ptkinitnegotiating
  outstanding : wpaReplayCounterValid sm f.replayCounter = true
  valid : sm.ptkValid = true
  verified : wpaVerifyKeyMic cr sm.ptk f = true

structure Message2 (sm : Sta) (f : EapolKey) : Prop where
  request : f.keyInfo.request = false
  pairwise : f.keyInfo.keyType = true
  data : f.keyDataLength ≠ 0
  state : sm.ptkState = .ptkstart ∨ sm.ptkState = .ptkcalcnegotiating
  outstanding : wpaReplayCounterValid sm f.replayCounter = true
  parsed : (wpaParseKdeIes (kdeOf f)).1 = true
  ie : wpaCompareRsnIe sm.wpaIe (eapolKeyIe (wpaParseKdeIes (kdeOf f)).2) = true

theorem Taken.message4 (h : Taken cr env fuel W i f sm U W') (hmsg : msgOf f = .pairwise4) :
    Message4 cr sm f := by
  obtain ⟨hreq, hpair⟩ := msgOf_pairwise h.msg
  obtain ⟨hstate, hvalid⟩ := h.accepted.pairwise4 hmsg
  exact ⟨h.accepted.ack, msgOf_pairwise_smk h.msg, hreq, hpair, msgOf_pairwise4 hmsg, hstate,
    h.accepted.outstanding hreq, hvalid, h.accepted.verified hvalid⟩

theorem Taken.message2 (h : Taken cr env fuel W i f sm U W') (hmsg : msgOf f = .pairwise2) :
    Message2 sm f := by
  obtain ⟨hreq, hpair⟩ := msgOf_pairwise h.msg
  obtain ⟨hstate, hparsed, hie⟩ := h.accepted.pairwise2 hmsg
  exact ⟨hreq, hpair, msgOf_pairwise2 hmsg, hstate, h.accepted.outstanding hreq, hparsed, hie⟩

theorem Taken.others (h : Taken cr env fuel W i f sm U W') (hport : Port D W) (j : ℕ) (smj : Sta)
    (hji : j ≠ i) (hj : W'.sta j = some smj) : Waits (D j) smj := by
  have hframe := (wpaSmStep_resting h.resting h.step).2
  refine hport.sta j smj ?_
  rw [← h.other j hji, ← hframe.other j hji]
  exact hj

-- The station that an accepted frame of the pairwise handshake waits for
def Sta.taking (sm : Sta) (f : EapolKey) (timer pending : Bool) : Sta :=
  { sm with
    micVerified := sm.ptkValid
    eapolTimer := timer
    pending1of4Timeout := pending
    keyReplay := retire sm.keyReplay
    lastRxEapolKey := some f
    rxEapolKeySecure := f.keyInfo.secure
    eapolKeyReceived := true
    eapolKeyPairwise := f.keyInfo.keyType
    eapolKeyRequest := f.keyInfo.request
    snonce := f.keyNonce }

theorem posted_eq_taking (sm : Sta) (hreq : f.keyInfo.request = false) :
    ∃ timer pending, (sm.micChecked.counted f).posted f = sm.taking f timer pending := by
  cases hv : sm.ptkValid with
  | true => exact ⟨false, false, by simp [Sta.micChecked, hv, Sta.counted, hreq, Sta.posted, Sta.taking]⟩
  | false =>
    exact ⟨sm.eapolTimer, sm.pending1of4Timeout,
      by simp [Sta.micChecked, hv, Sta.counted, hreq, Sta.posted, Sta.taking]⟩

theorem taking_keyFrame (sm : Sta) (timer pending : Bool) (hreq : f.keyInfo.request = false)
    (hpair : f.keyInfo.keyType = true) : (sm.taking f timer pending).keyFrame = true := by
  simp [Sta.keyFrame, Sta.taking, hreq, hpair]

theorem Calm.taking (h : Calm sm) (timer pending : Bool) :
    Calm ((sm.taking f timer pending).looping true) :=
  ⟨h.init, h.disconnect, h.deauthentication, h.authentication, h.reAuthentication, h.request⟩

-- Message 4/4: the station enters PTKINITDONE in the first round, and the PTK stays what it was.
theorem Taken.msg4 (h : Taken cr env fuel W i f sm U W') (hport : Port D W) (hmsg : msgOf f = .pairwise4) :
    (D i).ptk sm.addr sm.anonce sm.ptk ∧ (∃ sm', W'.sta i = some sm' ∧ Waits (D i) sm') ∧
      ∃ origin l, W'.out = W.out ++ .ptkInitDone sm.addr sm.anonce origin :: l ∧
        ∀ o ∈ l, DoneOut sm o := by
  have hm := h.message4 hmsg
  have hw := hport.sta i sm h.sta
  have hsec := hw.stepping.valid hm.valid
  obtain ⟨timer, pending, hposted⟩ := posted_eq_taking sm hm.request
  have hself := h.self
  rw [hposted] at hself
  obtain ⟨hs, hchanged, origin, l, hl, hdone⟩ := @roundFn_msg4 cr env (D i) U.ap
    (U.unmarked.ctx ((sm.taking f timer pending).looping true))
    ((hw.calm hsec.request).taking timer pending)
    (taking_keyFrame sm timer pending hm.request hm.pairwise) hm.valid hm.state hsec.derived
    hw.stepping.ie
  obtain ⟨sm', hi', hwaits, l', hl', hquiet⟩ :=
    wpaSmStep_first h.resting hself hs hchanged h.step
  refine ⟨hsec.derived, ⟨sm', hi', hwaits⟩, origin, l ++ l', ?_, ?_⟩
  · rw [hl', hl]
    change U.out ++ _ ++ l' = _
    rw [h.out, List.append_assoc]
    rfl
  · intro o ho
    rcases List.mem_append.mp ho with ho | ho
    · exact hdone o ho
    · exact .inl (hquiet o ho)

def Sta.ptkLen (sm : Sta) : ℕ := if sm.pairwise = some .ccmp then 48 else 64

-- The PTK has been computed from the ANonce of the station `sm` and the SNonce of message 2/4, and
-- the MIC of that message verifies under it. `out` is what was done on the message.
def DerivedFrom (cr : Crypto) (ap : Ap) (sm : Sta) (f : EapolKey) (out : List Out) (addr : Addr)
    (anonce : Nonce) (ptk : Ptk) : Prop :=
  ∃ pmk, addr = sm.addr ∧ anonce = sm.anonce ∧
    ptk = Ptk.write .zero (cr.wpaPmkToPtk pmk "Pairwise key expansion" ap.addr sm.addr sm.anonce
      f.keyNonce sm.ptkLen sm.wpaKeyMgmt.sha256) sm.ptkLen ∧
    wpaVerifyKeyMic cr ptk f = true ∧
    .derivePtk ⟨pmk, Crypto.ptkData ap.addr sm.addr sm.anonce f.keyNonce, sm.ptkLen,
      sm.wpaKeyMgmt.sha256⟩ ∈ out

-- Message 2/4: the machine computes a PTK that verifies its MIC, or there is none.
theorem Taken.msg2 (h : Taken cr env fuel W i f sm U W') (hport : Port D W) (hmsg : msgOf f = .pairwise2)
    (hie : ∀ ie, sm.wpaIe = some ie → E.ie ie)
    (hnew : ∀ addr anonce ptk, DerivedFrom cr W.ap sm f W'.out addr anonce ptk → E.ptk addr anonce ptk) :
    (∃ sm', W'.sta i = some sm' ∧ Waits E sm') ∧ ∀ o ∈ W'.out, ¬ Opens o := by
  have hm := h.message2 hmsg
  have hw := hport.sta i sm h.sta
  have hvalid : sm.ptkValid = false := by
    by_contra hv
    have hsec := hw.secured (by simpa using hv)
    rcases hm.state with hst | hst
    · simp [hst, PtkState.secured] at hsec
    · simp [hst, PtkState.secured] at hsec
  have hrequest : sm.ptkRequest = false := by
    by_contra hr
    obtain ⟨h1, h2⟩ := hw.request (by simpa using hr)
    rcases hm.state with hst | hst
    · exact h1 hst
    · exact h2 hst
  obtain ⟨timer, pending, hposted⟩ := posted_eq_taking sm hm.request
  have hself := h.self
  rw [hposted] at hself
  generalize hc : U.unmarked.ctx ((sm.taking f timer pending).looping true) = c at *
  have hsm : c.sm = (sm.taking f timer pending).looping true := by rw [← hc]; rfl
  -- the evidence that the round itself gives; the rest of the loop only adds outputs
  obtain ⟨hs, hchanged, l, hl, hround⟩ := @roundFn_msg2 cr env
    ⟨DerivedFrom cr W.ap sm f (roundFn cr env U.ap c).out, E.ie⟩ U.ap c f
    (hsm ▸ (hw.calm hrequest).taking timer pending)
    (hsm ▸ taking_keyFrame sm timer pending hm.request hm.pairwise)
    (by
      rw [hsm]
      exact hm.state.imp id fun hst => ⟨hst, hvalid⟩)
    (by rw [hsm]; rfl) (by rw [hsm]; exact hvalid) (by rw [hsm]; exact hie)
    (fun pmk hmic hmem => by
      rw [hsm, h.ap] at hmic hmem ⊢
      exact ⟨pmk, rfl, rfl, rfl, hmic, hmem⟩)
  subst hc
  obtain ⟨sm', hi', hwaits, l', hl', hquiet⟩ := wpaSmStep_first h.resting hself hs hchanged h.step
  refine ⟨⟨sm', hi', hwaits.mono ⟨fun addr anonce ptk hd => hnew addr anonce ptk ?_, fun _ h => h⟩⟩,
    ?_⟩
  · obtain ⟨pmk, h1, h2, h3, h4, h5⟩ := hd
    exact ⟨pmk, h1, h2, h3, h4, by rw [hl']; exact List.mem_append_left _ h5⟩
  · refine shut_append (fun o ho => ?_) ⟨l', hl', hquiet⟩
    rw [hl] at ho
    rcases List.mem_append.mp ho with ho | ho
    · exact hport.shut o (h.out ▸ ho)
    · exact hround o ho

end Receive

end WpaSupplicant.Authenticator
