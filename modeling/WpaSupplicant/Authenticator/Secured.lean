import WpaSupplicant.Authenticator.Events.Lemmas

namespace WpaSupplicant.Authenticator

open Lib.Octets Lib.Window Lib.Effect Lib.Loop KeyData

def Opens : Out → Prop
  | .setKey _ alg _ idx _ => alg ≠ .none ∧ idx = 0
  | .setEapol _ var value => (var = .authorized ∨ var = .portValid) ∧ value = true
  | _ => False

theorem Quiet.not_opens {o : Out} (h : Quiet o) : ¬ Opens o := by
  intro hopen
  cases o with
  | setKey vlanId alg addr idx key =>
    rcases h with h | h
    · exact hopen.1 h
    · exact h hopen.2
  | setEapol addr var value => exact Bool.false_ne_true ((h hopen.1).symm.trans hopen.2)
  | _ => exact hopen

-- What is known of the past of a station: where its PTK comes from, and where the IE of its
-- association request comes from
structure Evidence where
  ptk : Addr → Nonce → Ptk → Prop
  ie : Octets → Prop

def Evidence.noPtk (E : Evidence) : Evidence := { E with ptk := fun _ _ _ => False }

def Evidence.Le (E E' : Evidence) : Prop :=
  (∀ addr anonce ptk, E.ptk addr anonce ptk → E'.ptk addr anonce ptk) ∧ ∀ ie, E.ie ie → E'.ie ie

theorem Evidence.noPtk_le (E : Evidence) : E.noPtk.Le E := ⟨fun _ _ _ h => h.elim, fun _ h => h⟩

-- The states in which the machine may hold a PTK that has been verified, apart from
-- PTKCALCNEGOTIATING, which it leaves in the round behind the one that verifies it
def PtkState.secured : PtkState → Bool
  | .ptkInitialize | .disconnect | .disconnected | .ptkcalcnegotiating2 | .ptkinitnegotiating
  | .ptkinitdone => true
  | _ => false

-- The PTK belongs to the ANonce of the station, and the machine does not draw another ANonce, or
-- start another handshake, before it has given up the PTK.
structure Secured (E : Evidence) (sm : Sta) : Prop where
  derived : E.ptk sm.addr sm.anonce sm.ptk
  reAuthentication : sm.reAuthenticationRequest = false
  request : sm.ptkRequest = false
  state : sm.ptkState.secured = true ∨
    (sm.ptkState = .ptkcalcnegotiating ∧ sm.micVerified = true)

-- A station whose machines may run: no frame of the pairwise handshake waits for them.
structure Stepping (E : Evidence) (sm : Sta) : Prop where
  init : sm.init = false
  frame : sm.keyFrame = false
  valid : sm.ptkValid = true → Secured E sm
  ie : ∀ ie, sm.wpaIe = some ie → E.ie ie

-- The same for a station whose PTK is about to be given up
structure Unframed (E : Evidence) (sm : Sta) : Prop where
  init : sm.init = false
  frame : sm.keyFrame = false
  ie : ∀ ie, sm.wpaIe = some ie → E.ie ie

-- A station between two events. A request for a new PTK may be left behind when there is no
-- memory for the frame that made it.
structure Waits (E : Evidence) (sm : Sta) : Prop where
  stepping : Stepping E sm
  disconnect : sm.disconnect = false
  deauthentication : sm.deauthenticationRequest = false
  authentication : sm.authenticationRequest = false
  reAuthentication : sm.reAuthenticationRequest = false
  request : sm.ptkRequest = true → sm.ptkState ≠ .ptkstart ∧ sm.ptkState ≠ .ptkcalcnegotiating
  calculating : sm.ptkState = .ptkcalcnegotiating → sm.micVerified = false

section Station

variable {E E' : Evidence} {sm sm' : Sta}

theorem Secured.mono (h : Secured E sm) (hle : E.Le E') : Secured E' sm :=
  ⟨hle.1 _ _ _ h.derived, h.reAuthentication, h.request, h.state⟩

theorem Stepping.mono (h : Stepping E sm) (hle : E.Le E') : Stepping E' sm :=
  ⟨h.init, h.frame, fun hv => (h.valid hv).mono hle, fun ie hie => hle.2 ie (h.ie ie hie)⟩

theorem Waits.mono (h : Waits E sm) (hle : E.Le E') : Waits E' sm :=
  { h with stepping := h.stepping.mono hle }

theorem Waits.secured (h : Waits E sm) (hv : sm.ptkValid = true) : sm.ptkState.secured = true := by
  rcases (h.stepping.valid hv).state with hst | ⟨hst, hmic⟩
  · exact hst
  · simp [h.calculating hst] at hmic

theorem Waits.noPtk (h : Waits E.noPtk sm) : sm.ptkValid = false := by
  by_contra hv
  exact (h.stepping.valid (by simpa using hv)).derived

theorem Waits.calm (h : Waits E sm) (hreq : sm.ptkRequest = false) : Calm sm :=
  ⟨h.stepping.init, h.disconnect, h.deauthentication, h.authentication, h.reAuthentication, hreq⟩

-- The fields of a station that `Waits` speaks of
structure PortFields where
  init : Bool
  keyFrame : Bool
  ptkValid : Bool
  addr : Addr
  anonce : Nonce
  ptk : Ptk
  disconnect : Bool
  deauthenticationRequest : Bool
  authenticationRequest : Bool
  reAuthenticationRequest : Bool
  ptkRequest : Bool
  ptkState : PtkState
  micVerified : Bool
  wpaIe : Option Octets

def Sta.portFields (sm : Sta) : PortFields where
  init := sm.init
  keyFrame := sm.keyFrame
  ptkValid := sm.ptkValid
  addr := sm.addr
  anonce := sm.anonce
  ptk := sm.ptk
  disconnect := sm.disconnect
  deauthenticationRequest := sm.deauthenticationRequest
  authenticationRequest := sm.authenticationRequest
  reAuthenticationRequest := sm.reAuthenticationRequest
  ptkRequest := sm.ptkRequest
  ptkState := sm.ptkState
  micVerified := sm.micVerified
  wpaIe := sm.wpaIe

theorem Stepping.congr (h : Stepping E sm) (hf : sm'.portFields = sm.portFields) :
    Stepping E sm' := by
  simp only [Sta.portFields, PortFields.mk.injEq] at hf
  obtain ⟨hinit, hframe, hvalid, haddr, hanonce, hptk, -, -, -, hreauth, hreq, hst, hmic, hie⟩ := hf
  refine ⟨hinit.trans h.init, hframe.trans h.frame, fun hv => ?_, by rw [hie]; exact h.ie⟩
  obtain ⟨h1, h2, h3, h4⟩ := h.valid (hvalid.symm.trans hv)
  refine ⟨?_, hreauth.trans h2, hreq.trans h3, ?_⟩
  · rwa [haddr, hanonce, hptk]
  · rwa [hst, hmic]

theorem Waits.congr (h : Waits E sm) (hf : sm'.portFields = sm.portFields) : Waits E sm' := by
  have hstepping := h.stepping.congr hf
  simp only [Sta.portFields, PortFields.mk.injEq] at hf
  obtain ⟨-, -, -, -, -, -, hdisc, hdeauth, hauth, hreauth, hreq, hst, hmic, -⟩ := hf
  refine ⟨hstepping, hdisc.trans h.disconnect, hdeauth.trans h.deauthentication,
    hauth.trans h.authentication, hreauth.trans h.reAuthentication, ?_, ?_⟩
  · rw [hreq, hst]
    exact h.request
  · rw [hst, hmic]
    exact h.calculating

theorem Stepping.unframed (h : Stepping E sm) : Unframed E sm := ⟨h.init, h.frame, h.ie⟩

theorem Unframed.drop (h : Unframed E sm) (hvalid : sm.ptkValid = false) : Stepping E.noPtk sm :=
  ⟨h.init, h.frame, fun hv => by simp [hvalid] at hv, h.ie⟩

end Station

section Rounds

variable {cr : Crypto} {env : Env} {E : Evidence}

variable {sm sm' : Sta} {ap : Ap} {c : Ctx}

theorem Keeps.keyFrame (h : Keeps sm sm') (hframe : sm.keyFrame = false) : sm'.keyFrame = false := by
  have hpair : sm'.eapolKeyPairwise = sm.eapolKeyPairwise :=
    congrArg StaFixed.eapolKeyPairwise h.fixed
  have hreq : sm'.eapolKeyRequest = sm.eapolKeyRequest := congrArg StaFixed.eapolKeyRequest h.fixed
  by_contra hf
  simp only [Sta.keyFrame, Bool.not_eq_false, Bool.and_eq_true] at hf hframe
  obtain ⟨⟨hrec, hr⟩, hp⟩ := hf
  rw [hreq] at hr
  rw [hpair] at hp
  simp [h.received hrec, hr, hp] at hframe

theorem takenBack {b b' : Bool} (h : b' = true → b = true) (hb : b = false) : b' = false := by
  by_contra hb'
  simp [h (by simpa using hb')] at hb

theorem Keeps.stepping (h : Keeps sm sm') (hs : Stepping E sm)
    (hstate : Secured E sm → sm'.ptkValid = true → sm'.ptkState.secured = true ∨
      (sm'.ptkState = .ptkcalcnegotiating ∧ sm'.micVerified = true)) : Stepping E sm' := by
  have haddr : sm'.addr = sm.addr := congrArg StaFixed.addr h.fixed
  have hanonce : sm'.anonce = sm.anonce := congrArg StaNonce.anonce h.nonce
  have hie : sm'.wpaIe = sm.wpaIe := congrArg StaFixed.wpaIe h.fixed
  refine ⟨(congrArg StaFixed.init h.fixed).trans hs.init, h.keyFrame hs.frame, fun hv => ?_,
    by rw [hie]; exact hs.ie⟩
  obtain ⟨hvalid, hptk⟩ := h.valid hv
  have hsec := hs.valid hvalid
  refine ⟨?_, takenBack h.reAuthentication hsec.reAuthentication,
    takenBack h.request hsec.request, hstate hsec hv⟩
  rw [haddr, hanonce, hptk]
  exact hsec.derived

theorem Enters.secured (h : Enters sm sm') (hsec : Secured E sm) (hv : sm'.ptkValid = true) :
    sm'.ptkState.secured = true := by
  obtain ⟨-, -, hreq, hstate⟩ := hsec
  cases hst : sm'.ptkState with
  | ptkInitialize => rfl
  | disconnect => rfl
  | disconnected => rfl
  | authentication => simp [Enters, hst, hv] at h
  | authentication2 => simp [Enters, hst] at h
  | initpmk | initpsk =>
    simp only [Enters, hst] at h
    simp [h.2, PtkState.secured] at hstate
  | ptkstart =>
    simp only [Enters, hst] at h
    rcases h with h | h | h | h | ⟨h, hmic⟩
    · simp [hreq] at h
    · simp [h, PtkState.secured] at hstate
    · simp [h, PtkState.secured] at hstate
    · simp [h, PtkState.secured] at hstate
    · simp [h, hmic, PtkState.secured] at hstate
  | ptkcalcnegotiating => simp [Enters, hst] at h
  | ptkcalcnegotiating2 => rfl
  | ptkinitnegotiating => rfl
  | ptkinitdone => rfl

-- One step of the machine of the pairwise handshake when no frame waits for it: it enters a state,
-- or there was nothing to do.
theorem PtkStep.stepping {c' : Ctx} (h : PtkStep cr env ap c c') (hs : Stepping E c.sm) :
    Stepping E c'.sm ∧ (c'.sm.changed = true ∨ (c'.sm = c.sm ∧ Calm c.sm ∧
      (c.sm.ptkState = .ptkcalcnegotiating → c.sm.micVerified = false))) ∧
      ∃ l, c'.out = c.out ++ l ∧ ∀ o ∈ l, Quiet o := by
  have hnoframe (hframe : c.sm.keyFrame = true) : False := by simp [hs.frame] at hframe
  cases h with
  | stay hcalm hcalc hgoes hsm =>
    exact ⟨by rw [hsm]; exact hs, .inr ⟨hsm, hcalm, hcalc⟩, hgoes.emitted⟩
  | enter hgoes henters hchanged =>
    exact ⟨hgoes.rel.1.stepping hs fun hsec hv => .inl (henters.secured hsec hv),
      .inl (hchanged hs.init), hgoes.emitted⟩
  | @draw c1 hfrom hgoes hentered =>
    -- the ANonce is replaced: there is no PTK
    have hinvalid : c1.sm.ptkValid = false := by
      by_contra hv
      have hsec := hs.valid (hgoes.rel.1.valid (by simpa using hv)).1
      rcases hfrom with hreauth | ⟨-, hst⟩
      · simp [hsec.reAuthentication] at hreauth
      · simpa [hst, PtkState.secured] using hsec.state
    have hie : c1.sm.wpaIe = c.sm.wpaIe := congrArg StaFixed.wpaIe hgoes.rel.1.fixed
    refine ⟨⟨(congrArg StaFixed.init hgoes.rel.1.fixed).trans hs.init,
      hgoes.rel.1.keyFrame hs.frame, fun hv => ?_, ?_⟩, .inl (hentered.2 hs.init), hgoes.emitted⟩
    · exact absurd (hinvalid.symm.trans hv) (by simp)
    · exact fun ie h => hs.ie ie (hie.symm.trans h)
  | msg2 hcalm hframe hstate => exact (hnoframe hframe).elim
  | msg4 hcalm hframe hmic hstate => exact (hnoframe hframe).elim

-- The step of the machine of the group handshake that follows it
theorem Keeps.after (h : Keeps sm sm') (hst : sm'.ptkState = sm.ptkState) (hs : Stepping E sm) :
    Stepping E sm' := by
  refine h.stepping hs fun hsec _ => ?_
  rw [hst, h.micVerified]
  exact hsec.state

theorem Keeps.waits (h : Keeps sm sm') (hst : sm'.ptkState = sm.ptkState) (hs : Stepping E sm)
    (hcalm : Calm sm) (hcalc : sm.ptkState = .ptkcalcnegotiating → sm.micVerified = false)
    (hchanged : sm'.changed = false) : Waits E sm' := by
  have hreq := takenBack h.request hcalm.request
  refine ⟨h.after hst hs, ?_, takenBack h.deauthentication hcalm.deauthentication,
    takenBack h.authentication hcalm.authentication,
    takenBack h.reAuthentication hcalm.reAuthentication, fun hr => by simp [hreq] at hr, ?_⟩
  · by_contra hd
    rcases h.disconnect hcalm.init (by simpa using hd) with hd | hc
    · simp [hcalm.disconnect] at hd
    · simp [hchanged] at hc
  · rw [hst, h.micVerified]
    exact hcalc

theorem roundFn_stepping (hs : Stepping E c.sm) :
    Stepping E (roundFn cr env ap c).sm ∧
      ((roundFn cr env ap c).sm.changed = false → Waits E (roundFn cr env ap c).sm) ∧
      ∃ l, (roundFn cr env ap c).out = c.out ++ l ∧ ∀ o ∈ l, Quiet o := by
  obtain ⟨c1, hstep, hgoes, hst⟩ := @roundFn_steps cr env ap c
  have hs0 : Stepping E c.unmarked.sm := hs.congr rfl
  obtain ⟨hs1, hwhy, l, hl, hquiet⟩ := hstep.stepping hs0
  obtain ⟨l', hl', hquiet'⟩ := hgoes.emitted
  refine ⟨hgoes.rel.1.after hst hs1, fun hchanged => ?_, l ++ l', ?_, ?_⟩
  · rcases hwhy with hwhy | ⟨hsm, hcalm, hcalc⟩
    · simp [hgoes.rel.1.changed hs1.init hwhy] at hchanged
    · rw [← hsm] at hcalm hcalc
      exact hgoes.rel.1.waits hst hs1 hcalm hcalc hchanged
  · rw [hl', hl, List.append_assoc]
    rfl
  · intro o ho
    rcases List.mem_append.mp ho with ho | ho
    · exact hquiet o ho
    · exact hquiet' o ho

-- Station `i` in the loop of `wpa_sm_step`, which started behind the outputs `out`
def Running (E : Evidence) (i : ℕ) (out : List Out) (W : Auth) : Prop :=
  ∃ sm, W.sta i = some sm ∧ Stepping E sm ∧ ∃ l, W.out = out ++ l ∧ ∀ o ∈ l, Quiet o

def WaitsIfUnchanged (E : Evidence) (i : ℕ) (W : Auth) : Prop :=
  ∀ sm, W.sta i = some sm → sm.changed = false → Waits E sm

theorem Running.round {i : ℕ} {out : List Out} (W : Auth) (h : Running E i out W) :
    Running E i out (smRound cr env i W) ∧ WaitsIfUnchanged E i (smRound cr env i W) := by
  obtain ⟨sm, hi, hs, l, hl, hquiet⟩ := h
  obtain ⟨hsta, l2, hl2, hquiet2⟩ := @smRound_some cr env W i sm hi
  have hs0 : Stepping E (W.unmarked.ctx sm).sm := hs
  obtain ⟨hs1, hwaits, l1, hl1, hquiet1⟩ := @roundFn_stepping cr env E W.ap _ hs0
  have hi1 : (smRound cr env i W).sta i = some (roundFn cr env W.ap (W.unmarked.ctx sm)).sm := by
    simp [hsta]
  refine ⟨⟨_, hi1, hs1, l ++ l1 ++ l2, ?_, ?_⟩, ?_⟩
  · rw [hl2, hl1]
    change W.out ++ l1 ++ l2 = _
    simp [hl]
  · intro o ho
    simp only [List.mem_append] at ho
    rcases ho with (ho | ho) | ho
    · exact hquiet o ho
    · exact hquiet1 o ho
    · exact hquiet2 o ho
  · intro sm1 hsm1 hchanged
    obtain rfl := Option.some.inj (hi1.symm.trans hsm1)
    exact hwaits hchanged

theorem rounds_waits {V V' : Auth} {i : ℕ} (h : Rounds (smRound cr env i) (stepAgain · i) V V')
    (hi : V.sta i = some sm) (hs : Stepping E sm) :
    ∃ sm', V'.sta i = some sm' ∧ Waits E sm' ∧ ∃ l, V'.out = V.out ++ l ∧ ∀ o ∈ l, Quiet o := by
  obtain ⟨⟨sm', hi', -, hout⟩, hwaits⟩ :=
    h.rule (I := Running E i V.out) (T := WaitsIfUnchanged E i) Running.round
      ⟨sm, hi, hs, [], by simp, by simp⟩
  have hagain := h.settled
  simp only [stepAgain, hi', Bool.or_eq_false_iff] at hagain
  exact ⟨sm', hi', hwaits sm' hi' hagain.1, hout⟩

theorem ptkStep_msg2 (hcalm : Calm c.sm) (hframe : c.sm.keyFrame = true)
    (hstate : c.sm.ptkState = .ptkstart ∨
      (c.sm.ptkState = .ptkcalcnegotiating ∧ c.sm.micVerified = false)) :
    ptkStep cr env ap c = ptkPtkcalcnegotiating cr env ap c := by
  obtain ⟨hinit, hdisc, hdeauth, hauth, hreauth, hreq⟩ := hcalm
  simp only [Sta.keyFrame] at hframe
  simp only [ptkStep, hinit, hdisc, hdeauth, hauth, hreauth, hreq, hframe, Bool.false_eq_true,
    if_false, if_true]
  rcases hstate with hst | ⟨hst, hmic⟩
  · simp only [hst]
  · simp only [hst, hmic, Bool.false_eq_true, if_false]

theorem ptkStep_msg4 (hcalm : Calm c.sm) (hframe : c.sm.keyFrame = true) (hmic : c.sm.micVerified = true)
    (hstate : c.sm.ptkState = .ptkinitnegotiating) : ptkStep cr env ap c = ptkPtkinitdone env ap c := by
  obtain ⟨hinit, hdisc, hdeauth, hauth, hreauth, hreq⟩ := hcalm
  simp only [Sta.keyFrame] at hframe
  simp only [ptkStep, hinit, hdisc, hdeauth, hauth, hreauth, hreq, hframe, hmic, hstate,
    Bool.false_eq_true, if_false, if_true, Bool.and_self]

-- The station that has taken message 2/4: without a PTK that fits it has none.
theorem calculating_stepping {f : EapolKey} (hcalm : Calm c.sm) (hlast : c.sm.lastRxEapolKey = some f)
    (hvalid : c.sm.ptkValid = false) (hie : ∀ ie, c.sm.wpaIe = some ie → E.ie ie)
    (hnew : ∀ pmk, wpaVerifyKeyMic cr (wpaDerivePtk cr ap c.sm pmk) f = true →
      .derivePtk (ptkInput ap c.sm pmk) ∈ (ptkPtkcalcnegotiating cr env ap c).out →
      E.ptk c.sm.addr c.sm.anonce (wpaDerivePtk cr ap c.sm pmk)) :
    Stepping E (ptkPtkcalcnegotiating cr env ap c).sm ∧
      (ptkPtkcalcnegotiating cr env ap c).sm.changed = true ∧
      ∃ l, (ptkPtkcalcnegotiating cr env ap c).out = c.out ++ l ∧ ∀ o ∈ l, ¬ Opens o := by
  rcases ptkPtkcalcnegotiating_cases cr env ap c with heq | ⟨f', pmk, hf', hmic, heq⟩
  · rw [heq]
    refine ⟨⟨hcalm.init, rfl, fun hv => ?_, hie⟩, rfl, [], by simp [Ctx.calculating, enterPtk, Ctx.ask],
      by simp⟩
    exact absurd (hvalid.symm.trans hv) (by simp)
  obtain rfl := Option.some.inj (hf'.symm.trans hlast)
  have hout : (c.calculating.derived cr ap pmk).out =
      c.out ++ [.derivePtk (ptkInput ap c.sm pmk)] := rfl
  rw [heq] at hnew ⊢
  refine ⟨⟨hcalm.init, rfl, fun _ => ⟨?_, hcalm.reAuthentication, hcalm.request, .inr ⟨rfl, rfl⟩⟩,
    hie⟩, rfl, _, hout, ?_⟩
  · exact hnew pmk hmic (by simp [hout])
  · intro o ho
    rw [List.mem_singleton.mp ho]
    exact id

-- The station that has taken message 4/4
theorem Completes.stepping {c' : Ctx} (h : Completes c c') (hcalm : Calm c.sm)
    (hptk : c.sm.ptkValid = true → E.ptk c.sm.addr c.sm.anonce c.sm.ptk)
    (hie : ∀ ie, c.sm.wpaIe = some ie → E.ie ie) : Stepping E c'.sm ∧ c'.sm.changed = true := by
  have hcore := h.core
  simp only [Sta.core, StaCore.mk.injEq, Sta.nonce, StaNonce.mk.injEq] at hcore
  obtain ⟨⟨hanonce, -, -⟩, -, hrec, hvalid, hptk', hchanged, -, -, -, hreauth, hreq⟩ := hcore
  have haddr : c'.sm.addr = c.sm.addr := congrArg StaFixed.addr h.fixed
  have hwpaIe : c'.sm.wpaIe = c.sm.wpaIe := congrArg StaFixed.wpaIe h.fixed
  refine ⟨⟨(congrArg StaFixed.init h.fixed).trans hcalm.init, by simp [Sta.keyFrame, hrec],
    fun hv => ?_, by rw [hwpaIe]; exact hie⟩, hchanged⟩
  refine ⟨?_, hreauth.trans hcalm.reAuthentication, hreq.trans hcalm.request,
    .inl (by rw [h.state]; rfl)⟩
  rw [haddr, hanonce, hptk']
  exact hptk (hvalid.symm.trans hv)

theorem wpaSmStep_waits {fuel : ℕ} {W W' : Auth} {i : ℕ} (hrest : Resting W) (hi : W.sta i = some sm)
    (hs : Stepping E sm) (h : wpaSmStep cr env fuel W i = some W') :
    ∃ sm', W'.sta i = some sm' ∧ Waits E sm' ∧ ∃ l, W'.out = W.out ++ l ∧ ∀ o ∈ l, Quiet o := by
  obtain ⟨W1, hrounds, rfl⟩ := wpaSmStep_rounds hrest.noRekey hrest.idle hi h
  have hi0 : (W.modSta i (Sta.looping true)).sta i = some (sm.looping true) := by
    simp [Auth.modSta_some hi]
  obtain ⟨sm1, hi1, hwaits, hout⟩ := rounds_waits hrounds hi0 (hs.congr rfl)
  exact ⟨sm1.looping false, by simp [Auth.modSta_some hi1], hwaits.congr rfl, hout⟩

theorem wpaSmStep_first {fuel : ℕ} {W W' : Auth} {i : ℕ} (hrest : Resting W) (hi : W.sta i = some sm)
    (hs : Stepping E (roundFn cr env W.ap (W.unmarked.ctx (sm.looping true))).sm)
    (hchanged : (roundFn cr env W.ap (W.unmarked.ctx (sm.looping true))).sm.changed = true)
    (h : wpaSmStep cr env fuel W i = some W') :
    ∃ sm', W'.sta i = some sm' ∧ Waits E sm' ∧
      ∃ l, W'.out = (roundFn cr env W.ap (W.unmarked.ctx (sm.looping true))).out ++ l ∧
        ∀ o ∈ l, Quiet o := by
  obtain ⟨W1, hrounds, rfl⟩ := wpaSmStep_rounds hrest.noRekey hrest.idle hi h
  have hi0 : (W.modSta i (Sta.looping true)).sta i = some (sm.looping true) := by
    simp [Auth.modSta_some hi]
  obtain ⟨hsta, l, hl, hquiet⟩ :=
    @smRound_some cr env (W.modSta i (Sta.looping true)) i (sm.looping true) hi0
  have hi1 : (smRound cr env i (W.modSta i (Sta.looping true))).sta i =
      some (roundFn cr env W.ap (W.unmarked.ctx (sm.looping true))).sm := by
    rw [hsta]
    exact Function.update_self ..
  cases hrounds with
  | last hagain => simp [stepAgain, hi1, hchanged] at hagain
  | more hagain hrest =>
    obtain ⟨sm1, hi2, hwaits, l', hl', hquiet'⟩ := rounds_waits hrest hi1 hs
    refine ⟨sm1.looping false, by simp [Auth.modSta_some hi2], hwaits.congr rfl, l ++ l', ?_, ?_⟩
    · refine hl'.trans ?_
      rw [hl, List.append_assoc]
      rfl
    · intro o ho
      rcases List.mem_append.mp ho with ho | ho
      · exact hquiet o ho
      · exact hquiet' o ho

theorem Calm.unmarked (h : Calm c.sm) : Calm c.unmarked.sm :=
  ⟨h.init, h.disconnect, h.deauthentication, h.authentication, h.reAuthentication, h.request⟩

theorem roundFn_msg2 {f : EapolKey} (hcalm : Calm c.sm) (hframe : c.sm.keyFrame = true)
    (hstate : c.sm.ptkState = .ptkstart ∨
      (c.sm.ptkState = .ptkcalcnegotiating ∧ c.sm.micVerified = false))
    (hlast : c.sm.lastRxEapolKey = some f) (hvalid : c.sm.ptkValid = false)
    (hie : ∀ ie, c.sm.wpaIe = some ie → E.ie ie)
    (hnew : ∀ pmk, wpaVerifyKeyMic cr (wpaDerivePtk cr ap c.sm pmk) f = true →
      .derivePtk (ptkInput ap c.sm pmk) ∈ (roundFn cr env ap c).out →
      E.ptk c.sm.addr c.sm.anonce (wpaDerivePtk cr ap c.sm pmk)) :
    Stepping E (roundFn cr env ap c).sm ∧ (roundFn cr env ap c).sm.changed = true ∧
      ∃ l, (roundFn cr env ap c).out = c.out ++ l ∧ ∀ o ∈ l, ¬ Opens o := by
  have hcalm0 := hcalm.unmarked
  have hstep : ptkStep cr env ap c.unmarked = ptkPtkcalcnegotiating cr env ap c.unmarked :=
    ptkStep_msg2 hcalm0 hframe hstate
  have hgoes := ptkGroupStep_goes cr env ap (ptkStep cr env ap c.unmarked)
  have hst := ptkGroupStep_ptkState cr env ap (ptkStep cr env ap c.unmarked)
  rw [roundFn] at hnew ⊢
  rw [hstep] at hgoes hst hnew ⊢
  obtain ⟨l', hl', hquiet⟩ := hgoes.emitted
  obtain ⟨hs, hchanged, l, hl, hshut⟩ := @calculating_stepping cr env E ap c.unmarked f hcalm0 hlast
    hvalid hie fun pmk hmic hmem => hnew pmk hmic (by rw [hl']; exact List.mem_append_left _ hmem)
  refine ⟨hgoes.rel.1.after hst hs, hgoes.rel.1.changed hs.init hchanged, l ++ l', ?_, ?_⟩
  · rw [hl', hl, List.append_assoc]
    rfl
  · intro o ho
    rcases List.mem_append.mp ho with ho | ho
    · exact hshut o ho
    · exact (hquiet o ho).not_opens

theorem roundFn_msg4 (hcalm : Calm c.sm) (hframe : c.sm.keyFrame = true) (hmic : c.sm.micVerified = true)
    (hstate : c.sm.ptkState = .ptkinitnegotiating) (hptk : E.ptk c.sm.addr c.sm.anonce c.sm.ptk)
    (hie : ∀ ie, c.sm.wpaIe = some ie → E.ie ie) :
    Stepping E (roundFn cr env ap c).sm ∧ (roundFn cr env ap c).sm.changed = true ∧
      ∃ origin l, (roundFn cr env ap c).out =
        c.out ++ .ptkInitDone c.sm.addr c.sm.anonce origin :: l ∧ ∀ o ∈ l, DoneOut c.sm o := by
  have hcalm0 := hcalm.unmarked
  have hstep : ptkStep cr env ap c.unmarked = ptkPtkinitdone env ap c.unmarked :=
    ptkStep_msg4 hcalm0 hframe hmic hstate
  have hgoes := ptkGroupStep_goes cr env ap (ptkStep cr env ap c.unmarked)
  have hst := ptkGroupStep_ptkState cr env ap (ptkStep cr env ap c.unmarked)
  rw [roundFn]
  rw [hstep] at hgoes hst ⊢
  have hdone := ptkPtkinitdone_completes env ap c.unmarked
  obtain ⟨hs, hchanged⟩ := hdone.stepping hcalm0 (fun _ => hptk) hie
  obtain ⟨l, hl, hall⟩ := hdone.emitted
  obtain ⟨l', hl', hquiet⟩ := hgoes.emitted
  refine ⟨hgoes.rel.1.after hst hs, hgoes.rel.1.changed hs.init hchanged,
    c.sm.anonceOrigin.getD ⟨0, 0⟩, l ++ l', ?_, ?_⟩
  · rw [hl', hl, List.append_assoc]
    rfl
  · intro o ho
    rcases List.mem_append.mp ho with ho | ho
    · exact hall o ho
    · exact .inl (hquiet o ho)

end Rounds

end WpaSupplicant.Authenticator
