import WpaSupplicant.EapolSupp.Backend
import WpaSupplicant.EapolSupp.Steps

namespace WpaSupplicant.EapolSupp

open Lib.StateMachine Lib.Machine

section Told

variable {c : Ctx} {a : Answer} {answers : ℕ → Answer} {sm : Sm}

-- A packet that is finished has one of the results.
def Event.told : Event → Bool
  | .finished resp noResp ok nok => resp || noResp || ok || nok
  | _ => true

def AllTold (sm : Sm) : Prop := ∀ e ∈ sm.eap.trace, e.told = true

theorem AllTold.cons {e : Event} {l : List Event} (h : ∀ x ∈ l, x.told = true) (he : e.told = true) :
    ∀ x ∈ e :: l, x.told = true := by
  intro x hx
  rcases List.mem_cons.mp hx with rfl | hx
  · exact he
  · exact h x hx

theorem AllTold.entry (h : AllTold sm) (t : EapState) : AllTold (eapEntry c a t sm) := by
  unfold AllTold at h ⊢
  cases t
  case initializing => exact AllTold.cons h rfl
  case success => exact AllTold.cons h rfl
  case received =>
    have htrace : (parseEapReq c sm.eap sm.eapReqData).trace = sm.eap.trace :=
      (congrArg EapSm.trace (parseEapReq_sessionPart c sm.eap sm.eapReqData) :)
    simp only [eapEntry, eapReceived, htrace]
    exact h
  case getMethod =>
    simp only [eapEntry]
    unfold eapGetMethod
    dsimp only
    repeat' split
    case isFalse.isTrue => exact AllTold.cons h rfl
    all_goals exact h
  case method =>
    simp only [eapEntry]
    unfold eapMethod
    split
    · exact h
    split
    · exact h
    · exact AllTold.cons h rfl
  case sendResponse =>
    simp only [eapEntry]
    unfold eapSendResponse
    dsimp only
    split <;> exact h
  all_goals exact h

theorem AllTold.step (h : AllTold sm) : AllTold (eapStep c a sm).1 := by
  have hcases := eapStep_cases c a sm
  generalize eapStep c a sm = r at hcases ⊢
  cases hcases with
  | restart => exact h.entry (c := c) (a := a) .initializing
  | disabled => exact h.entry (c := c) (a := a) .disabled
  | tooMany => exact AllTold.entry (c := c) (a := a) (show AllTold (countRound sm) from h) .failure
  | exceeded => exact h
  | stay => exact h
  | enter t => exact h.entry t

theorem eapPeerSmStep_rule {P : Sm → Prop} (hloop : P (eapLoop c answers eapLoopBound sm false).1)
    (hnote : ∀ (s : Sm) l, P s → P { s with eap := { s.eap with trace := l } }) :
    P (eapPeerSmStep c answers sm).1 := by
  unfold eapPeerSmStep
  dsimp only
  split
  · exact hnote _ _ hloop
  · exact hloop

theorem eapPeerSmStep_told (c : Ctx) (answers : ℕ → Answer) (h : AllTold sm)
    (hserved : sm.eapReq = true → (eapLoop c answers eapLoopBound sm false).1.eapReq = true ∨
      Answered (eapLoop c answers eapLoopBound sm false).1) : AllTold (eapPeerSmStep c answers sm).1 := by
  have hloop := eapLoop_keeps c answers (J := AllTold) h (fun _ _ hs => hs.step) (fun _ hs => hs)
  unfold eapPeerSmStep
  dsimp only
  split
  · rename_i hreq
    simp only [Bool.and_eq_true, Bool.not_eq_true'] at hreq
    refine AllTold.cons hloop ?_
    rcases hserved hreq.1 with hreq' | hanswered
    · simp [hreq.2] at hreq'
    · rcases hanswered with h | h | h | h <;> simp [Event.told, h]
  · exact hloop

theorem eapPeerSmStep_eapolPart (c : Ctx) (answers : ℕ → Answer) (sm : Sm) : eapolPart (eapPeerSmStep c answers sm).1 = eapolPart sm :=
  eapPeerSmStep_rule (P := fun s => eapolPart s = eapolPart sm)
    (eapLoop_keeps c answers (I := fun s => eapolPart s = eapolPart sm) (J := fun s => eapolPart s = eapolPart sm) rfl
      (fun _ _ hs => (eapStep_eapolPart).trans hs) (fun _ hs => hs)) (fun _ _ hs => hs)

end Told

section Invariant

-- What holds at every moment: the EAP machine waits, and an authentication in progress has a result or an EAP
-- machine that can answer.
structure Steady (sm : Sm) : Prop where
  settled : Settled sm
  initialized : sm.initializing = false
  engaged : Ready sm ∨ (Engaged sm → sm.eapSuccess = true ∨ sm.eapFail = true)
  told : AllTold sm

structure Rested (sm : Sm) : Prop extends Steady sm where
  noAbort : sm.suppAbort = false
  answered : sm.be = .request → Answered sm
  restart : sm.pae = .restart → Ready sm
  waiting : sm.eap.state = .idle → sm.eapReq = true → Ready sm ∨ sm.eapSuccess = true ∨ sm.eapFail = true

structure Posed (sm : Sm) : Prop extends Steady sm where
  abort : sm.suppAbort = true → sm.pae = .disconnected
  down : sm.portEnabled = false → sm.suppAbort = true
  answered : sm.be = .request → Answered sm
  restart : sm.pae = .restart → Ready sm ∨ (sm.eapRestart = true ∧ sm.portEnabled = true)
  waiting : sm.eap.state = .idle → sm.eapReq = true → Ready sm ∨ sm.eapSuccess = true ∨ sm.eapFail = true

-- Before the EAP machine: a request that the backend has just taken can be answered.
structure Asked (sm : Sm) : Prop extends Steady sm where
  noAbort : sm.suppAbort = false
  asked : sm.be = .request → sm.portEnabled = true ∧ sm.eapReq = true ∧
    (Ready sm ∨ sm.eapSuccess = true ∨ sm.eapFail = true)
  restart : sm.pae = .restart → Ready sm ∨ (sm.eapRestart = true ∧ sm.portEnabled = true)
  waiting : sm.eap.state = .idle → sm.eapReq = true →
    Ready sm ∨ sm.eapSuccess = true ∨ sm.eapFail = true ∨ sm.eapReqData = none

variable {c : Ctx} {sm s : Sm} {answers : ℕ → Answer} {set : Bool}

-- What `Ready` says about the EAP machine
def waitingPart (eap : EapSm) : EapState × ℕ × Option Method × Option Octets × ℤ :=
  (eap.state, eap.selectedMethod, eap.m, eap.lastRespData, eap.lastId)

theorem Ready.mono (h : Ready sm) (heap : waitingPart s.eap = waitingPart sm.eap)
    (hsuccess : sm.eapSuccess = true → s.eapSuccess = true) (hfail : sm.eapFail = true → s.eapFail = true) :
    Ready s := by
  simp only [waitingPart, Prod.mk.injEq] at heap
  obtain ⟨hstate, hselected, hm, hdata, hid⟩ := heap
  refine ⟨?_, ?_, ?_, ?_⟩
  · rw [hstate]
    exact fun hs => hsuccess (h.success hs)
  · rw [hstate]
    exact fun hs => hfail (h.failure hs)
  · rw [hstate, hselected, hm]
    exact h.selected
  · rw [hstate, hdata, hid]
    exact h.last

theorem Settled.mono (h : Settled sm) (hstate : s.eap.state = sm.eap.state)
    (hrounds : s.eap.numRounds = sm.eap.numRounds) : Settled s :=
  ⟨hstate ▸ h.rest, by rw [hstate, hrounds]; exact h.rounds⟩

theorem Rested.accept (h : Rested sm) (valid : Bool) (hport : sm.portEnabled = true) :
    Posed { sm with portValid := valid } where
  settled := h.settled.mono rfl rfl
  initialized := h.initialized
  engaged := h.engaged.imp (fun hr => hr.mono rfl id id) id
  told := h.told
  abort := fun ha => by simp [h.noAbort] at ha
  down := fun hp => by simp [hport] at hp
  answered := h.answered
  restart := fun hp => Or.inl ((h.restart hp).mono rfl id id)
  waiting := fun hs hq => (h.waiting hs hq).imp (fun hr => hr.mono rfl id id) id

theorem Rested.enter (h : Rested sm) {t : PaeState} (ht : t ≠ .unknown)
    (hport : t = .disconnected ∨ sm.portEnabled = true)
    (hauth : t = .authenticating → Ready sm ∨ sm.eapSuccess = true ∨ sm.eapFail = true) : Posed (paeEntry t sm) := by
  have hready : ∀ t, Ready sm → Ready (paeEntry t sm) := by
    intro t hr
    cases t <;> exact hr.mono rfl id id
  have hflags : (paeEntry t sm).eapSuccess = sm.eapSuccess ∧ (paeEntry t sm).eapFail = sm.eapFail ∧
      (paeEntry t sm).eap = sm.eap ∧ (paeEntry t sm).be = sm.be ∧ (paeEntry t sm).eapReq = sm.eapReq ∧
      (paeEntry t sm).eapResp = sm.eapResp ∧ (paeEntry t sm).eapNoResp = sm.eapNoResp ∧
      (paeEntry t sm).portEnabled = sm.portEnabled ∧ (paeEntry t sm).initializing = sm.initializing ∧
      (paeEntry t sm).suppStart = (decide (t = .authenticating) || sm.suppStart) ∧
      (paeEntry t sm).suppAbort = (decide (t = .disconnected) || sm.suppAbort) ∧
      (paeEntry t sm).eapRestart = (decide (t = .restart) || sm.eapRestart) ∧
      (t ≠ .unknown → (paeEntry t sm).pae = t) := by
    cases t <;> simp [paeEntry]
  obtain ⟨hsuccess, hfail, heap, hbe, hreq, hresp, hno, hport', hinit, hstart, habort, hrestart, hpae⟩ := hflags
  refine ⟨⟨h.settled.mono (by rw [heap]) (by rw [heap]), hinit.trans h.initialized, ?_, ?_⟩, ?_, ?_, ?_, ?_, ?_⟩
  · by_cases ht' : t = .authenticating
    · rcases hauth ht' with hr | hres
      · exact Or.inl (hready t hr)
      · exact Or.inr (fun _ => by rw [hsuccess, hfail]; exact hres)
    rcases h.engaged with hr | hres
    · exact Or.inl (hready t hr)
    refine Or.inr (fun he => ?_)
    rw [hsuccess, hfail]
    apply hres
    simpa [Engaged, hbe, hstart, ht'] using he
  · simpa [AllTold, heap] using h.told
  · intro ha
    simp [habort, h.noAbort] at ha
    exact ha ▸ hpae ht
  · intro hdown
    rcases hport with rfl | hp
    · simp [habort]
    · simp [hport', hp] at hdown
  · intro hb
    have := h.answered (hbe ▸ hb)
    simpa [Answered, hresp, hno, hsuccess, hfail] using this
  · intro hp
    rw [hpae ht] at hp
    rcases hport with rfl | hport
    · simp at hp
    · exact Or.inr ⟨by rw [hrestart, hp]; rfl, hport'.trans hport⟩
  · rw [heap, hreq, hsuccess, hfail]
    exact fun hs hq => (h.waiting hs hq).imp (hready t) id

theorem Rested.pae (h : Rested sm) : Posed (paeStep sm).1 := by
  have hcases := paeStep_cases sm
  generalize paeStep sm = r at hcases ⊢
  cases hcases with
  | logoff _ _ _ hport => exact h.enter (t := .logoff) (by simp) (Or.inr hport) (by simp)
  | disconnected => exact h.enter (t := .disconnected) (by simp) (Or.inl rfl) (by simp)
  | force t mode ht hport =>
    simp only [List.mem_cons, Prod.mk.injEq, List.not_mem_nil, or_false] at ht
    rcases ht with ⟨rfl, -⟩ | ⟨rfl, -⟩
    · exact h.enter (t := .sForceAuth) (by simp) (Or.inr hport) (by simp)
    · exact h.enter (t := .sForceUnauth) (by simp) (Or.inr hport) (by simp)
  | stay hport =>
    obtain ⟨valid, hvalid⟩ := acceptPlaintext_eq sm
    rw [hvalid]
    exact h.accept valid hport
  | enter t hport _ _ _ hmove =>
    obtain ⟨valid, hvalid⟩ := acceptPlaintext_eq sm
    rw [hvalid] at hmove ⊢
    have hrested : Rested { sm with portValid := valid } := by
      have hposed := h.accept valid hport
      exact ⟨hposed.toSteady, h.noAbort, hposed.answered, fun hp => (h.restart hp).mono rfl id id, hposed.waiting⟩
    refine hrested.enter ?_ (Or.inr hport) ?_
    · rintro rfl
      cases hmove
    · rintro rfl
      cases hmove with
      | result _ hresult => exact Or.inr hresult
      | restarted hpae _ => exact Or.inl (hrested.restart hpae)

theorem Posed.key (h : Posed sm) : Posed (keyRxStep c set sm).1 := by
  have heffect := keyRxStep_effect c set sm
  generalize (keyRxStep c set sm).1 = s at heffect ⊢
  have hpart := heffect.part
  have hmono := heffect.monotone
  have heap : waitingPart s.eap = waitingPart sm.eap := (congrArg (fun x => waitingPart x.eap) hpart :)
  have hfail : s.eapFail = sm.eapFail := (congrArg Sm.eapFail hpart :)
  have hready : Ready sm → Ready s := fun hr => hr.mono heap hmono (fun hf => hfail.trans hf)
  have hresult : sm.eapSuccess = true ∨ sm.eapFail = true → s.eapSuccess = true ∨ s.eapFail = true :=
    Or.imp hmono (fun hf => hfail.trans hf)
  have hbe : s.be = sm.be := (congrArg Sm.be hpart :)
  have hstart : s.suppStart = sm.suppStart := (congrArg Sm.suppStart hpart :)
  have habort : s.suppAbort = sm.suppAbort := (congrArg Sm.suppAbort hpart :)
  have hpae : s.pae = sm.pae := (congrArg Sm.pae hpart :)
  have hport : s.portEnabled = sm.portEnabled := (congrArg Sm.portEnabled hpart :)
  have hreq : s.eapReq = sm.eapReq := (congrArg Sm.eapReq hpart :)
  have hrestart : s.eapRestart = sm.eapRestart := (congrArg Sm.eapRestart hpart :)
  have hresp : s.eapResp = sm.eapResp := (congrArg Sm.eapResp hpart :)
  have hno : s.eapNoResp = sm.eapNoResp := (congrArg Sm.eapNoResp hpart :)
  have hstate : s.eap.state = sm.eap.state := (congrArg (fun x => x.eap.state) hpart :)
  refine ⟨⟨h.settled.mono hstate (congrArg (fun x => x.eap.numRounds) hpart :),
    ((congrArg Sm.initializing hpart :) : s.initializing = _).trans h.initialized, ?_, ?_⟩, ?_, ?_, ?_, ?_, ?_⟩
  · refine h.engaged.imp hready (fun hres he => hresult (hres ?_))
    simpa [Engaged, hbe, hstart] using he
  · cases heffect with
    | none _ _ htrace => simpa [AllTold, htrace] using h.told
    | success _ _ _ htrace =>
      unfold AllTold
      rw [htrace]
      exact AllTold.cons h.told rfl
  · rw [habort, hpae]
    exact h.abort
  · rw [hport, habort]
    exact h.down
  · intro hb
    rcases h.answered (hbe ▸ hb) with ha | ha | ha | ha
    · exact Or.inl (hresp.trans ha)
    · exact Or.inr (Or.inl (hno.trans ha))
    · exact Or.inr (Or.inr (Or.inl (hmono ha)))
    · exact Or.inr (Or.inr (Or.inr (hfail.trans ha)))
  · rw [hpae, hrestart, hport]
    exact fun hp => (h.restart hp).imp hready id
  · rw [hstate, hreq]
    exact fun hs hq => (h.waiting hs hq).imp hready hresult

-- The backend waits for a result only where there is none.
theorem beStepMove_stay (hinit : sm.initializing = false) (habort : sm.suppAbort = false) (hbe : sm.be = .request)
    (hmove : beStepMove sm = .stay) : ¬Answered sm := by
  unfold beStepMove at hmove
  simp only [hinit, habort, hbe] at hmove
  rintro (h | h | h | h)
  all_goals
    repeat' split at hmove
    all_goals simp_all

-- The backend takes a request, goes on, or ends.
theorem Posed.be (h : Posed sm) : Asked (beStep sm).1 := by
  have hcases := beStep_cases sm
  generalize beStep sm = r at hcases ⊢
  cases hcases with
  | abort habort =>
    have habort' : sm.suppAbort = true := by simpa [h.initialized] using habort
    refine ⟨⟨h.settled.mono rfl rfl, h.initialized, Or.inr (fun he => by simp [Engaged, beEntry] at he), h.told⟩,
      rfl, fun hb => by simp [beEntry] at hb, fun hp => ?_, fun _ _ => Or.inr (Or.inr (Or.inr rfl))⟩
    have hdown := h.abort habort'
    simp [beEntry, eapSmAbort, hdown] at hp
  | stay _ habort hmove =>
    refine ⟨h.toSteady, habort, fun hb => ?_, h.restart, fun hs hq => (h.waiting hs hq).imp id (Or.imp id Or.inl)⟩
    exact absurd (h.answered hb) (beStepMove_stay h.initialized habort hb hmove)
  | enter t _ habort hmove =>
    have hport : sm.portEnabled = true := by
      by_contra hp
      have := h.down (by simpa using hp)
      simp [habort] at this
    have hframe : t ≠ .unknown ∧ t ≠ .initializing ∧ (t ∈ [BeState.request, .receive, .response] → Engaged sm) := by
      cases hmove <;> simp_all [Engaged]
    obtain ⟨hunknown, hinitializing, hbefore⟩ := hframe
    have hflags : waitingPart (beEntry t sm).eap = waitingPart sm.eap ∧
        (beEntry t sm).eapSuccess = sm.eapSuccess ∧ (beEntry t sm).eapFail = sm.eapFail ∧
        (beEntry t sm).eap.numRounds = sm.eap.numRounds ∧ (beEntry t sm).eap.trace = sm.eap.trace ∧
        (beEntry t sm).be = t ∧ (t = .idle → (beEntry t sm).suppStart = false) ∧
        (beEntry t sm).initializing = sm.initializing ∧ (beEntry t sm).suppAbort = sm.suppAbort ∧
        (beEntry t sm).portEnabled = sm.portEnabled ∧ (beEntry t sm).pae = sm.pae ∧
        (beEntry t sm).eapRestart = sm.eapRestart ∧
        (beEntry t sm).eapReq = (decide (t = .request) || sm.eapReq) := by
      cases t <;> simp [beEntry, waitingPart] at hunknown hinitializing ⊢
    obtain ⟨heap, hsuccess, hfail, hrounds, htrace, hbe, hidle, hinit, habort', hport', hpae, hrestart, hreq⟩ := hflags
    have hstate : (beEntry t sm).eap.state = sm.eap.state := congrArg Prod.fst heap
    have hready : Ready sm → Ready (beEntry t sm) :=
      fun hr => hr.mono heap (fun hs => hsuccess.trans hs) (fun hf => hfail.trans hf)
    have hresult : sm.eapSuccess = true ∨ sm.eapFail = true →
        (beEntry t sm).eapSuccess = true ∨ (beEntry t sm).eapFail = true := by
      rw [hsuccess, hfail]
      exact id
    -- a request is taken only in an authentication
    have hasked : t = .request → Ready (beEntry t sm) ∨ (beEntry t sm).eapSuccess = true ∨
        (beEntry t sm).eapFail = true := by
      intro ht
      rcases h.engaged with hr | hres
      · exact Or.inl (hready hr)
      · exact Or.inr (hresult (hres (hbefore (by simp [ht]))))
    refine ⟨⟨h.settled.mono hstate hrounds, hinit.trans h.initialized, ?_, ?_⟩, habort'.trans habort, ?_, ?_, ?_⟩
    · rcases h.engaged with hr | hres
      · exact Or.inl (hready hr)
      refine Or.inr (fun he => hresult (hres (hbefore ?_)))
      rcases he with he | ⟨hb, hs⟩
      · exact hbe ▸ he
      · rw [hidle (hbe ▸ hb)] at hs
        simp at hs
    · simpa [AllTold, htrace] using h.told
    · intro hb
      have ht : t = .request := hbe ▸ hb
      exact ⟨hport'.trans hport, by rw [hreq, ht]; rfl, hasked ht⟩
    · rw [hpae, hrestart, hport']
      exact fun hp => (h.restart hp).imp hready id
    · rw [hstate]
      intro hs hq
      by_cases ht : t = .request
      · exact (hasked ht).imp id (Or.imp id Or.inl)
      · have hq' : sm.eapReq = true := by simpa [hreq, ht] using hq
        exact (h.waiting hs hq').imp hready (fun hres => (hresult hres).imp id Or.inl)

structure Handled (sm s : Sm) : Prop where
  ready : Ready sm → Ready s
  results : Ready s ∨ (sm.eapSuccess = true ∨ sm.eapFail = true → s.eapSuccess = true ∨ s.eapFail = true)
  served : (sm.eap.state = .idle → sm.eapReq = true →
      Ready sm ∨ sm.eapSuccess = true ∨ sm.eapFail = true ∨ sm.eapReqData = none) →
    sm.eapReq = true → s.eapReq = true ∨ Answered s
  answered : sm.portEnabled = true → sm.eapReq = true → Ready sm ∨ sm.eapSuccess = true ∨ sm.eapFail = true → Answered s
  restarted : sm.eapRestart = true → sm.portEnabled = true → Ready s

-- What the methods and the configuration owe where they are asked
def Serves (A : Answer → Prop) (sm : Sm) : Prop :=
  sm.eap.forceDisabled = false ∧
    ∀ a, A a → a.responds = true ∧ (asksIdentity sm.eapReqData = true → identityBuilt a sm.config = true)

theorem eapLoop_handled (hmethods : c.methods ≠ []) (hsettled : Settled sm)
    (hserves : sm.portEnabled = true → sm.eapReq = true → Serves (fun a => ∃ k, answers k = a) sm) :
    Handled sm (eapLoop c answers eapLoopBound sm false).1 := by
  by_cases hoff : sm.portEnabled = false ∨ sm.eap.forceDisabled = true
  · obtain ⟨hstate, hreq⟩ := eapLoop_off c answers hsettled hoff
    have hready : Ready (eapLoop c answers eapLoopBound sm false).1 := by
      constructor <;> simp [hstate]
    refine ⟨fun _ => hready, Or.inl hready, fun _ hq => Or.inl (hreq.trans hq), fun hport hq => ?_, fun _ _ => hready⟩
    simp [hport, (hserves hport hq).1] at hoff
  simp only [not_or, Bool.not_eq_false, Bool.not_eq_true] at hoff
  obtain ⟨hport, hforce⟩ := hoff
  by_cases hstart : sm.eapRestart = true ∨ sm.eap.state = .disabled ∨ (sm.eap.state = .idle ∧ Ready sm)
  · by_cases hreq : sm.eapReq = true
    · have hanswers := (hserves hport hreq).2
      obtain ⟨hready, hanswered⟩ := eapLoop_serving c answers hmethods (fun k => (hanswers _ ⟨k, rfl⟩).1)
        ⟨hport, hforce, fun hask a ha => (hanswers a ha).2 hask⟩ hsettled hstart
      exact ⟨fun _ => hready, Or.inl hready, fun _ hq => Or.inr (hanswered hq), fun _ hq _ => hanswered hq,
        fun _ _ => hready⟩
    · have hready := eapLoop_quiet c answers ⟨hport, hforce, fun _ _ => False.elim⟩ hsettled (by simpa using hreq) hstart
      exact ⟨fun _ => hready, Or.inl hready, fun _ hq => absurd hq hreq, fun _ hq => absurd hq hreq,
        fun _ _ => hready⟩
  simp only [not_or, not_and] at hstart
  obtain ⟨hclear, hon, hidle⟩ := hstart
  have hpast : Past sm := by
    refine ⟨by simpa using hclear, hport, hforce, ?_⟩
    have hrest := hsettled.rest
    simp only [List.mem_cons, List.not_mem_nil, or_false] at hrest ⊢
    rcases hrest with hs | hs | hs | hs <;> simp_all
  have hresults := eapLoop_results c answers hpast
  have hanswered : sm.eapSuccess = true ∨ sm.eapFail = true → Answered (eapLoop c answers eapLoopBound sm false).1 :=
    fun hres => Or.inr (Or.inr (hresults hres))
  by_cases hfinal : sm.eap.state ∈ [EapState.success, .failure]
  · obtain ⟨hready, hserved⟩ := eapLoop_final c answers hpast hfinal
    refine ⟨hready, Or.inr hresults, fun _ => hserved, fun _ _ hask => ?_, fun hr => absurd hr hclear⟩
    rcases hask with hr | hres
    · simp only [List.mem_cons, List.not_mem_nil, or_false] at hfinal
      rcases hfinal with hs | hs
      · exact hanswered (Or.inl (hr.success hs))
      · exact hanswered (Or.inr (hr.failure hs))
    · exact hanswered hres
  · have hstate : sm.eap.state = .idle := by
      have hrest := hsettled.rest
      simp only [List.mem_cons, List.not_mem_nil, or_false] at hrest hfinal
      tauto
    refine ⟨fun hr => absurd hr (hidle hstate), Or.inr hresults, fun hwaiting hq => Or.inr ?_, fun _ _ hask => ?_,
      fun hr => absurd hr hclear⟩
    · rcases hwaiting hstate hq with hr | hs | hf | hnone
      · exact absurd hr (hidle hstate)
      · exact hanswered (Or.inl hs)
      · exact hanswered (Or.inr hf)
      · exact eapLoop_discard c answers hpast hsettled hstate hq hnone
    · rcases hask with hr | hres
      · exact absurd hr (hidle hstate)
      · exact hanswered hres

theorem Asked.eap (h : Asked sm) (hmethods : c.methods ≠ [])
    (hserves : sm.portEnabled = true → sm.eapReq = true → Serves (fun a => ∃ k, answers k = a) sm) :
    Rested (eapPeerSmStep c answers sm).1 ∧
      ((eapPeerSmStep c answers sm).1.eap.state = .idle → (eapPeerSmStep c answers sm).1.eapReq = false) := by
  have hloop := eapLoop_handled hmethods h.settled hserves
  have htold := eapPeerSmStep_told c answers h.told (hloop.served h.waiting)
  obtain ⟨hsettled, hcalm⟩ := eapPeerSmStep_settled c answers h.settled
  have hpart := eapPeerSmStep_eapolPart c answers sm
  have hhandled : Handled sm (eapPeerSmStep c answers sm).1 :=
    eapPeerSmStep_rule hloop (fun s l hs => ⟨fun hr => (hs.ready hr).mono rfl id id,
      hs.results.imp (fun hr => hr.mono rfl id id) id, hs.served, hs.answered,
      fun hr hp => (hs.restarted hr hp).mono rfl id id⟩)
  generalize (eapPeerSmStep c answers sm).1 = s at *
  have hbe : s.be = sm.be := (congrArg Sm.be hpart :)
  have hstart : s.suppStart = sm.suppStart := (congrArg Sm.suppStart hpart :)
  have hpae : s.pae = sm.pae := (congrArg Sm.pae hpart :)
  have hinit : s.initializing = sm.initializing := (congrArg Sm.initializing hpart :)
  have habort : s.suppAbort = sm.suppAbort := (congrArg Sm.suppAbort hpart :)
  have hwait : s.eap.state = .idle → s.eapReq = false := by
    intro hs
    by_contra hq
    have hmove := hcalm.idle hs
    rw [Bool.not_eq_false] at hq
    simp [eapStepIdle, hq] at hmove
  refine ⟨⟨⟨hsettled, hinit.trans h.initialized, ?_, htold⟩, habort.trans h.noAbort, ?_, ?_, ?_⟩, hwait⟩
  · rcases h.engaged with hr | hres
    · exact Or.inl (hhandled.ready hr)
    · refine hhandled.results.imp id (fun hkeep he => hkeep (hres ?_))
      simpa [Engaged, hbe, hstart] using he
  · intro hb
    obtain ⟨hport, hreq, hask⟩ := h.asked (hbe ▸ hb)
    exact hhandled.answered hport hreq hask
  · intro hp
    rcases h.restart (hpae ▸ hp) with hr | ⟨hr, hport⟩
    · exact hhandled.ready hr
    · exact hhandled.restarted hr hport
  · intro hs hq
    simp [hwait hs] at hq

end Invariant

section Calls

variable {c : Ctx} {sm s : Sm} {env : ℕ → Env} {i : Input}

-- What `Rested` says about the variables
def restedPart (sm : Sm) : (EapState × ℕ × Option Method × Option Octets × ℤ) × ℕ × Bool × Bool × BeState × Bool × Bool ×
    Bool × Bool :=
  (waitingPart sm.eap, sm.eap.numRounds, sm.initializing, sm.suppAbort, sm.be, sm.suppStart, sm.eapReq, sm.eapResp,
    sm.eapNoResp)

theorem Rested.mono (h : Rested sm) (hpart : restedPart s = restedPart sm)
    (hsuccess : sm.eapSuccess = true → s.eapSuccess = true) (hfail : sm.eapFail = true → s.eapFail = true)
    (hpae : s.pae = .restart → sm.pae = .restart) (htold : AllTold s) : Rested s := by
  simp only [restedPart, Prod.mk.injEq] at hpart
  obtain ⟨heap, hrounds, hinit, habort, hbe, hstart, hreq, hresp, hno⟩ := hpart
  have hstate : s.eap.state = sm.eap.state := congrArg Prod.fst heap
  have hready : Ready sm → Ready s := fun hr => hr.mono heap hsuccess hfail
  have hresult : sm.eapSuccess = true ∨ sm.eapFail = true → s.eapSuccess = true ∨ s.eapFail = true :=
    Or.imp hsuccess hfail
  refine ⟨⟨h.settled.mono hstate hrounds, hinit.trans h.initialized, ?_, htold⟩, habort.trans h.noAbort, ?_,
    fun hp => hready (h.restart (hpae hp)), ?_⟩
  · refine h.engaged.imp hready (fun hres he => hresult (hres ?_))
    simpa [Engaged, hbe, hstart] using he
  · intro hb
    rcases h.answered (hbe ▸ hb) with ha | ha | ha | ha
    · exact Or.inl (hresp.trans ha)
    · exact Or.inr (Or.inl (hno.trans ha))
    · exact Or.inr (Or.inr (Or.inl (hsuccess ha)))
    · exact Or.inr (Or.inr (Or.inr (hfail ha)))
  · rw [hstate, hreq]
    exact fun hs hq => (h.waiting hs hq).imp hready hresult

structure Resting (sm : Sm) : Prop extends Rested sm where
  noRequest : sm.eap.state = .idle → sm.eapReq = false

-- What depends on no authentication may take back its result.
theorem Resting.withdraw (h : Resting sm) (hrest : AtRest sm) (hpart : restedPart s = restedPart sm)
    (hpae : s.pae = sm.pae) (htold : AllTold s) : Resting s := by
  simp only [restedPart, Prod.mk.injEq] at hpart
  obtain ⟨heap, hrounds, hinit, habort, hbe, hstart, hreq, hresp, hno⟩ := hpart
  have hstate : s.eap.state = sm.eap.state := congrArg Prod.fst heap
  have hengaged : Engaged s → Engaged sm := by
    intro he
    simpa [Engaged, hbe, hstart] using he
  have hwait : s.eap.state = .idle → s.eapReq = false := by
    rw [hstate, hreq]
    exact h.noRequest
  refine ⟨⟨⟨h.settled.mono hstate hrounds, hinit.trans h.initialized, Or.inr fun he => absurd (hengaged he) hrest.1,
    htold⟩, habort.trans h.noAbort, fun hb => ?_, fun hp => absurd (hpae ▸ hp) hrest.2, fun hs hq => ?_⟩, hwait⟩
  · exact absurd (hengaged (Or.inl (by simp [hb]))) hrest.1
  · simp [hwait hs] at hq

theorem Resting.succeed (h : Resting sm) (hpart : restedPart s = restedPart { sm with eap := eapNotifySuccess sm |>.eap })
    (hstate : s.eap.state = .success) (hpae : s.pae = .restart → s.eapSuccess = true)
    (hflags : (sm.eapSuccess = true → s.eapSuccess = true) ∧ (sm.eapFail = true → s.eapFail = true))
    (hengaged : Engaged sm → s.eapSuccess = true ∨ s.eapFail = true) (htold : AllTold s) : Resting s := by
  simp only [restedPart, eapNotifySuccess, Prod.mk.injEq] at hpart
  obtain ⟨-, hrounds, hinit, habort, hbe, hstart, hreq, hresp, hno⟩ := hpart
  have hidle : s.eap.state ≠ .idle := by simp [hstate]
  refine ⟨⟨⟨⟨by simp [hstate], fun _ => by simp [hstate]⟩, hinit.trans h.initialized, Or.inr fun he => hengaged ?_,
    htold⟩, habort.trans h.noAbort, ?_, fun hp => ?_, fun hs => absurd hs hidle⟩, fun hs => absurd hs hidle⟩
  · simpa [Engaged, hbe, hstart] using he
  · intro hb
    rcases h.answered (hbe ▸ hb) with ha | ha | ha | ha
    · exact Or.inl (hresp.trans ha)
    · exact Or.inr (Or.inl (hno.trans ha))
    · exact Or.inr (Or.inr (Or.inl (hflags.1 ha)))
    · exact Or.inr (Or.inr (Or.inr (hflags.2 ha)))
  · constructor <;> simp [hstate, hpae hp]

theorem Resting.apply (h : Resting sm) {op : Op} (hop : Undisturbed sm op) :
    Rested (op.apply sm).1 ∧ ((op.apply sm).2 = false → Resting (op.apply sm).1) := by
  have hframe : ∀ s : Sm, restedPart s = restedPart sm → (sm.eapSuccess = true → s.eapSuccess = true) →
      (sm.eapFail = true → s.eapFail = true) → (s.pae = .restart → sm.pae = .restart) → AllTold s → Resting s := by
    intro s hpart hsuccess hfail hpae htold
    refine ⟨h.toRested.mono hpart hsuccess hfail hpae htold, ?_⟩
    simp only [restedPart, Prod.mk.injEq] at hpart
    obtain ⟨heap, -, -, -, -, -, hreq, -⟩ := hpart
    have hstate : s.eap.state = sm.eap.state := congrArg Prod.fst heap
    rw [hstate, hreq]
    exact h.noRequest
  have hboth : Resting (op.apply sm).1 →
      Rested (op.apply sm).1 ∧ ((op.apply sm).2 = false → Resting (op.apply sm).1) :=
    fun hr => ⟨hr.toRested, fun _ => hr⟩
  cases op with
  | step => exact hboth h
  | tick => exact hboth (hframe _ rfl id id id h.told)
  | rxEapol buf alloc =>
    apply hboth
    simp only [Op.apply]
    unfold eapolSmRxEapol
    dsimp only
    repeat' split
    all_goals first
      | exact h
      | exact hframe _ rfl id id id h.told
      | exact hframe _ rfl id id (fun hp => by simp [abortCached] at hp) h.told
  | configure => exact hboth (hframe _ rfl id id id h.told)
  | notifyPortEnabled | notifyPortValid | notifyLogoff | notifyPmkidAttempt | notifyPortControl =>
    exact hboth (hframe _ rfl id id id h.told)
  | notifyEapSuccess success =>
    apply hboth
    cases success with
    | true => exact h.succeed rfl rfl (fun _ => rfl) ⟨fun _ => rfl, id⟩ (fun _ => Or.inl rfl) h.told
    | false =>
      rcases hop with hrest | hsame
      · exact h.withdraw hrest rfl rfl h.told
      · exact hframe _ rfl (fun hs => by simp [hsame] at hs) id id h.told
  | notifyEapFail fail =>
    apply hboth
    cases fail with
    | true => exact hframe _ rfl id (fun _ => rfl) id h.told
    | false =>
      rcases hop with hrest | hsame
      · exact h.withdraw hrest rfl rfl h.told
      · exact hframe _ rfl id (fun hf => by simp [hsame] at hf) id h.told
  | notifyConfig config conf =>
    apply hboth
    cases conf with
    | none => exact hframe _ rfl id id id h.told
    | some conf => exact hframe _ rfl id id id h.told
  | notifyCached =>
    apply hboth
    refine h.succeed rfl rfl (fun hp => by simp [Op.apply, eapNotifySuccess] at hp) ⟨id, id⟩ (fun he => ?_) h.told
    rcases hop with hrest | hres
    · exact absurd he hrest
    · exact hres
  | notifyCtrlResponse =>
    simp only [Op.apply]
    split
    · refine ⟨⟨⟨h.settled.mono rfl rfl, h.initialized, ?_, h.told⟩, h.noAbort, h.answered, ?_, ?_⟩, by simp⟩
      · exact h.engaged.imp (fun hr => hr.mono rfl id id) id
      · exact fun hp => (h.restart hp).mono rfl id id
      · exact fun hs _ => Or.inl ((hop hs).mono rfl id id)
    · exact ⟨h.toRested, fun _ => h⟩
  | notifyLowerLayer =>
    apply hboth
    have heffect := notifyLowerLayerSuccess_effect sm
    have hpart : restedPart (notifyLowerLayerSuccess sm) = restedPart sm :=
      (congrArg restedPart heffect.part :)
    refine hframe _ hpart heffect.monotone (fun hf => ?_) (fun hp => ?_) ?_
    · exact ((congrArg Sm.eapFail heffect.part :) : (notifyLowerLayerSuccess sm).eapFail = _).trans hf
    · exact ((congrArg Sm.pae heffect.part :) : (notifyLowerLayerSuccess sm).pae = _).symm.trans hp
    · show AllTold (notifyLowerLayerSuccess sm)
      cases heffect with
      | none _ _ htrace => simpa [AllTold, htrace] using h.told
      | success _ _ _ htrace =>
        unfold AllTold
        rw [htrace]
        exact AllTold.cons h.told rfl
  | invalidateCachedSession =>
    apply hboth
    have hready : Ready sm → Ready { sm with eap := { sm.eap with m := none } } := by
      intro hr
      refine ⟨hr.success, hr.failure, fun hs hsel => ?_, hr.last⟩
      rcases hop with hne | hnone
      · exact absurd hs hne
      · exact absurd hnone hsel
    exact ⟨⟨⟨h.settled.mono rfl rfl, h.initialized, h.engaged.imp hready id, h.told⟩, h.noAbort, h.answered,
      fun hp => hready (h.restart hp), fun hs hq => (h.waiting hs hq).imp hready id⟩, h.noRequest⟩

theorem Serves.of_imp {A B : Answer → Prop} (h : Serves A sm) (hB : ∀ a, B a → A a) : Serves B sm :=
  ⟨h.1, fun a ha => h.2 a (hB a ha)⟩

-- A request that can be handed to the EAP machine finds what it needs.
def Able (A : Answer → Prop) (sm : Sm) : Prop := Requested sm → Serves A sm

section Able

variable {A : Answer → Prop}

theorem Able.entry (h : Able A sm) (c : Ctx) (a : Answer) (t : EapState) : Able A (eapEntry c a t sm) := by
  rintro ⟨hport, hask⟩
  have hpart := eapEntry_eapolPart c a t sm
  have hreq : (eapEntry c a t sm).eapReq = true → sm.eapReq = true := by
    rw [(eapEntry_vars c a t sm).1]
    split
    · simp
    · exact id
  have hdata : (eapEntry c a t sm).eapReqData = sm.eapReqData := (congrArg Sm.eapReqData hpart :)
  obtain ⟨hforce, hanswers⟩ := h ⟨(congrArg Sm.portEnabled hpart :).symm.trans hport,
    hask.imp (congrArg Sm.eapolEap hpart :).symm.trans hreq⟩
  refine ⟨(eapEntry_eap c a t sm).1.trans hforce, fun a' ha' => ⟨(hanswers a' ha').1, fun hidentity => ?_⟩⟩
  rw [hdata] at hidentity
  exact eapEntry_config (A := A) (fun b hb => (hanswers b hb).2 hidentity) a' ha'

theorem Able.step (h : Able A sm) (a : Answer) : Able A (eapStep c a sm).1 := by
  have hcases := eapStep_cases c a sm
  generalize eapStep c a sm = r at hcases ⊢
  cases hcases with
  | restart => exact h.entry c a .initializing
  | disabled => exact h.entry c a .disabled
  | tooMany => exact (show Able A (countRound sm) from h).entry c a .failure
  | exceeded => exact h
  | stay => exact h
  | enter t => exact h.entry c a t

theorem Able.eap (h : Able A sm) (answers : ℕ → Answer) : Able A (eapPeerSmStep c answers sm).1 :=
  eapPeerSmStep_rule (eapLoop_keeps c answers (J := Able A) h (fun k _ hs => hs.step (answers k)) (fun _ hs => hs))
    (fun _ _ hs => hs)

theorem Able.pae (h : Able A sm) : Able A (paeStep sm).1 := by
  have hentry : ∀ t, Able A (paeEntry t sm) := by
    intro t
    cases t with
    | connecting => exact fun ⟨hport, hask⟩ => h ⟨hport, Or.inr (hask.resolve_left Bool.false_ne_true)⟩
    | _ => exact h
  have hcases := paeStep_cases sm
  generalize paeStep sm = r at hcases ⊢
  obtain ⟨valid, hvalid⟩ := acceptPlaintext_eq sm
  cases hcases with
  | logoff => exact hentry .logoff
  | disconnected => exact hentry .disconnected
  | force t => exact hentry t
  | stay => rw [hvalid]; exact h
  | enter t =>
    rw [hvalid]
    have := hentry t
    cases t <;> exact this

theorem Able.key (h : Able A sm) (c : Ctx) (set : Bool) : Able A (keyRxStep c set sm).1 := by
  have hpart := (keyRxStep_effect c set sm).part
  generalize (keyRxStep c set sm).1 = s at hpart ⊢
  rintro ⟨hport, hask⟩
  obtain ⟨hforce, hanswers⟩ := h ⟨(congrArg Sm.portEnabled hpart :).symm.trans hport,
    hask.imp (congrArg Sm.eapolEap hpart :).symm.trans (congrArg Sm.eapReq hpart :).symm.trans⟩
  have hdata : s.eapReqData = sm.eapReqData := (congrArg Sm.eapReqData hpart :)
  have hconfig : s.config = sm.config := (congrArg Sm.config hpart :)
  refine ⟨(congrArg (fun s => s.eap.forceDisabled) hpart :).trans hforce, ?_⟩
  rw [hdata, hconfig]
  exact hanswers

-- The backend takes only a request that was received, and drops the packet where it is aborted.
theorem Able.be (h : Able A sm) : Able A (beStep sm).1 := by
  have hcases := beStep_cases sm
  generalize beStep sm = r at hcases ⊢
  cases hcases with
  | abort =>
    intro hasked
    obtain ⟨hforce, hanswers⟩ := h hasked
    exact ⟨hforce, fun a ha => ⟨(hanswers a ha).1, Bool.noConfusion⟩⟩
  | stay => exact h
  | enter t _ _ hmove =>
    cases t with
    | request =>
      rintro ⟨hport, -⟩
      have heap : sm.eapolEap = true := by
        cases hmove with
        | startRequest _ _ heap => exact heap
        | request _ heap => exact heap
      exact h ⟨hport, Or.inl heap⟩
    | receive => exact fun ⟨hport, hask⟩ => h ⟨hport, Or.inr (hask.resolve_left Bool.false_ne_true)⟩
    | initializing => cases hmove
    | _ => exact h

theorem Rested.iteration (h : Rested sm) (hmethods : c.methods ≠ []) {env : Env} (hable : Able A sm)
    (hA : ∀ k, A (env.eap k)) :
    Resting (iteration c env sm).1 ∧ Able A (iteration c env sm).1 ∧
      ((EapolSupp.iteration c env sm).2 = false → (EapolSupp.iteration c env sm).1.be ≠ .request) := by
  have hposed : Posed (keyRxStep c env.setWepKey (paeStep sm).1).1 := h.pae.key
  have hable' : Able A (beStep (keyRxStep c env.setWepKey (paeStep sm).1).1).1 := (hable.pae.key c _).be
  obtain ⟨hrested, hwait⟩ := hposed.be.eap hmethods fun hport hreq =>
    (hable' ⟨hport, Or.inr hreq⟩).of_imp (fun a (ha : ∃ k, env.eap k = a) => ha.elim fun k hk => hk ▸ hA k)
  refine ⟨⟨hrested, hwait⟩, hable'.eap env.eap, fun hend => ?_⟩
  simp only [EapolSupp.iteration, Bool.or_eq_false_iff] at hend ⊢
  have hbe : (eapPeerSmStep c env.eap (beStep (keyRxStep c env.setWepKey (paeStep sm).1).1).1).1.be =
      (beStep (keyRxStep c env.setWepKey (paeStep sm).1).1).1.be := (congrArg Sm.be (eapPeerSmStep_eapolPart c env.eap _) :)
  rw [hbe]
  have hcases := beStep_cases (keyRxStep c env.setWepKey (paeStep sm).1).1
  have hsame := hend.1.2
  generalize beStep (keyRxStep c env.setWepKey (paeStep sm).1).1 = r at hcases hsame ⊢
  cases hcases with
  | abort => simp [beEntry]
  | stay hinit habort hmove => exact fun hb => beStepMove_stay hinit habort hb hmove (hposed.answered hb)
  | enter => simp at hsame

theorem Rested.iterations (h : Rested sm) (c : Ctx) (env : ℕ → Env) (hmethods : c.methods ≠ []) (hable : Able A sm)
    (hA : ∀ n k, A ((env n).eap k)) (n : ℕ) :
    Resting (iterations c env (n + 1) sm).1 ∧
      ((EapolSupp.iterations c env (n + 1) sm).2 = false → (EapolSupp.iterations c env (n + 1) sm).1.be ≠ .request) := by
  induction n generalizing sm with
  | zero =>
    obtain ⟨hresting, -, hend⟩ := h.iteration hmethods hable (hA 0)
    cases hr : (EapolSupp.iteration c (env 0) sm).2 with
    | true => simpa [EapolSupp.iterations, hr] using hresting
    | false => simpa [EapolSupp.iterations, hr] using ⟨hresting, hend hr⟩
  | succ n ih =>
    obtain ⟨hresting, hable', hend⟩ := h.iteration hmethods hable (hA (n + 1))
    cases hr : (EapolSupp.iteration c (env (n + 1)) sm).2 with
    | true =>
      rw [iterations_changed (Prod.ext rfl hr)]
      exact ih hresting.toRested hable'
    | false =>
      rw [iterations_done (Prod.ext rfl hr)]
      exact ⟨hresting, fun _ => hend hr⟩

end Able

-- A call that leaves an authentication alone, and whose methods answer where a request can be handed to them
def Answers (sm : Sm) (i : Input) : Prop :=
  Undisturbed sm i.op ∧
    ((i.op.apply sm).2 = true → Requested (i.op.apply sm).1 → Answering (i.op.apply sm).1 i.env)

theorem Resting.call (h : Resting sm) (hmethods : c.methods ≠ []) (hi : Answers sm i) :
    Resting (call c i sm).1 ∧
      ((i.op.apply sm).2 = true → (EapolSupp.call c i sm).2 = false → (EapolSupp.call c i sm).1.be ≠ .request) := by
  obtain ⟨hrested, hresting⟩ := h.apply hi.1
  unfold EapolSupp.call
  dsimp only
  split
  · rename_i hsteps
    have hable : Able (fun a => ∃ n k, (i.env n).eap k = a) (i.op.apply sm).1 := by
      intro hasked
      obtain ⟨hforce, hanswers⟩ := hi.2 hsteps hasked
      exact ⟨hforce, fun a ⟨n, k, ha⟩ => ha ▸ hanswers n k⟩
    have hrun := hrested.iterations c i.env hmethods hable (fun n k => ⟨n, k, rfl⟩) 99
    exact ⟨hrun.1, fun _ => hrun.2⟩
  · rename_i hsteps
    refine ⟨hresting (by simpa using hsteps), fun ht => absurd ht hsteps⟩

theorem eapolSmStart_resting : Resting eapolSmStart where
  settled := ⟨by simp [eapolSmStart], by simp [eapolSmStart]⟩
  initialized := rfl
  engaged := Or.inl ⟨by simp [eapolSmStart], by simp [eapolSmStart], by simp [eapolSmStart], by simp [eapolSmStart]⟩
  told := by simp [AllTold, eapolSmStart]
  noAbort := rfl
  answered := by simp [eapolSmStart]
  restart := by simp [eapolSmStart]
  waiting := by simp [eapolSmStart]
  noRequest := by simp [eapolSmStart]

-- Where every method answers, an identity can be built and an authentication is left alone, every packet that is
-- finished has a result, and no call that ends because nothing changes leaves the backend waiting for one.
theorem backend_not_blocked (c : Ctx) (hmethods : c.methods ≠ []) (env env' : ℕ → Env) (sm : Sm)
    (hrun : Runs (exec c) Answers (eapolSmInit c env env') sm) :
    (∀ e ∈ sm.eap.trace, e.told = true) ∧ ∀ i, Answers sm i → (i.op.apply sm).2 = true → (call c i sm).2 = false →
      (call c i sm).1.be ≠ .request := by
  have hresting : Resting sm := by
    refine hrun.rule (I := Resting) ?_ (fun s i hs hi => (hs.call hmethods hi).1)
    rw [eapolSmInit_eq]
    exact eapolSmStart_resting
  exact ⟨hresting.told, fun i hi => (hresting.call hmethods hi).2⟩

def md5Ctx : Ctx where
  methods := [⟨eapVendorIetf, 4⟩]
  md5 := fun _ => []
  hmacMd5 := fun _ _ => []
  noNone := by decide

-- A method that answers every request
def answering : ℕ → Env := fun _ => { eap := fun _ => { ret := { resp := some [] } } }

def identityRequest : Input := { op := .rxEapol [2, 0, 0, 5, 1, 7, 0, 5, 1] true, env := answering }

-- What is called before the first request: the port is told to be down before anything is configured.
def broughtUp (identity : Option Octets) : List Input :=
  [{ op := .notifyPortEnabled false }, { op := .tick }, { op := .notifyConfig (some { identity := identity }) none },
    { op := .notifyPortEnabled true, env := answering }]

theorem backend_not_blocked_identity :
    (call md5Ctx identityRequest ((broughtUp (some [97])).foldl (exec md5Ctx) eapolSmStart)).1.be ≠ .request := by
  have hdown : Answers eapolSmStart { op := .notifyPortEnabled false } :=
    ⟨trivial, fun _ hasked => absurd hasked.1 (by decide)⟩
  have htick : Answers (((broughtUp (some [97])).take 1).foldl (exec md5Ctx) eapolSmStart) { op := .tick } :=
    ⟨trivial, fun _ hasked => absurd hasked.1 (by decide)⟩
  have hconfig : Answers (((broughtUp (some [97])).take 2).foldl (exec md5Ctx) eapolSmStart)
      { op := .notifyConfig (some { identity := some [97] }) none } := ⟨trivial, fun h => by simp [Op.apply] at h⟩
  have hport : Answers (((broughtUp (some [97])).take 3).foldl (exec md5Ctx) eapolSmStart)
      { op := .notifyPortEnabled true, env := answering } :=
    ⟨trivial, fun _ hasked => absurd hasked.2 (by decide)⟩
  have hidentity : identityBuilt { ret := { resp := some [] } }
      (identityRequest.op.apply ((broughtUp (some [97])).foldl (exec md5Ctx) eapolSmStart)).1.config = true := by
    rfl
  have hrequest : Answers ((broughtUp (some [97])).foldl (exec md5Ctx) eapolSmStart) identityRequest :=
    ⟨trivial, fun _ _ => ⟨rfl, fun _ _ => ⟨rfl, fun _ => hidentity⟩⟩⟩
  have hrun := backend_not_blocked md5Ctx (by decide) answering answering
    ((broughtUp (some [97])).foldl (exec md5Ctx) eapolSmStart) (by
      rw [eapolSmInit_eq]
      exact .step _ (.step _ (.step _ (.step _ .init hdown) htick) hconfig) hport)
  exact hrun.2 identityRequest hrequest rfl (by decide)

-- Without an identity, the request is finished without any result, and the backend goes on waiting for one.
theorem identity_not_built :
    Runs (exec md5Ctx) (fun _ _ => True) (eapolSmInit md5Ctx answering answering)
        ((broughtUp none).foldl (exec md5Ctx) eapolSmStart) ∧
      (identityRequest.op.apply ((broughtUp none).foldl (exec md5Ctx) eapolSmStart)).2 = true ∧
      (call md5Ctx identityRequest ((broughtUp none).foldl (exec md5Ctx) eapolSmStart)).2 = false ∧
      (call md5Ctx identityRequest ((broughtUp none).foldl (exec md5Ctx) eapolSmStart)).1.be = .request ∧
      .finished false false false false ∈
        (call md5Ctx identityRequest ((broughtUp none).foldl (exec md5Ctx) eapolSmStart)).1.eap.trace := by
  refine ⟨?_, by decide, by decide, by decide, by decide⟩
  rw [eapolSmInit_eq]
  exact Runs.of_free (broughtUp none) (fun _ _ => trivial)

end Calls

end WpaSupplicant.EapolSupp
