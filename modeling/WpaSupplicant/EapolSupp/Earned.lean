import WpaSupplicant.EapolSupp.Requests

namespace WpaSupplicant.EapolSupp

open Lib.Octets Lib.Buffer Lib.StateMachine Lib.Machine
open EapTls (eapCodeRequest)

def session (l : List Event) : List Event := l.takeWhile (· ≠ .initializing)

theorem mem_session_cons {e x : Event} {l : List Event} (he : e ≠ .initializing) (h : x ∈ session l) :
    x ∈ session (e :: l) := by
  rw [session, List.takeWhile_cons_of_pos (by simpa using he)]
  exact List.mem_cons_of_mem _ h

def latestResult : List Event → Option (Method × Decision)
  | [] | .initializing :: _ => none
  | .processed m decision _ :: _ => some (m, decision)
  | _ :: l => latestResult l

def lastSelected : List Event → Option (Method × Bool)
  | [] => none
  | .selected m allowed :: _ => some (m, allowed)
  | _ :: l => lastSelected l

def succeeded : List Event → Option Method
  | [] | .initializing :: _ => none
  | .success :: l => (latestResult l).map Prod.fst
  | _ :: l => succeeded l

def Earned (l : List Event) : Prop :=
  ∃ m decision, latestResult l = some (m, decision) ∧ decision ≠ .fail ∧ lastSelected l = some (m, true)

-- Every success is earned, a success that stands is one of this session, and a key that is handed out was delivered in
-- it by the method that has succeeded.
structure SuccessEarned (sm : Sm) : Prop where
  earned : ∀ newer older, sm.eap.trace = newer ++ .success :: older → Earned older
  success : sm.eapSuccess = true → (succeeded sm.eap.trace).isSome = true
  key : ∀ len k, getKey sm len = .key k → ∃ m decision key, succeeded sm.eap.trace = some m ∧
    .processed m decision (some key) ∈ session sm.eap.trace ∧ k = key.take len

def Unforced : Op → Prop
  | .notifyEapSuccess _ | .notifyCached => False
  | _ => True

-- An EAP-Request of the type `EAP_TYPE_NONE` in an EAPOL frame
def NoneRequest (buf : Octets) : Prop := buf[1]? = some 0 ∧ buf[4]? = some eapCodeRequest ∧ buf[8]? = some 0

-- No request of that type comes while there is a method.
def Undisputed (sm : Sm) (i : Input) : Prop :=
  Unforced i.op ∧ match i.op with
    | .rxEapol buf _ => NoneRequest buf → sm.eap.m = none
    | _ => True

section Invariant

variable {c : Ctx} {a : Answer} {sm s : Sm} {t : EapState}

def asksNone (req : Octets) : Prop := req[0]? = some eapCodeRequest ∧ req[4]? = some 0

-- What the variables of the EAP machine owe to its history: no method is selected, or one that was allowed.
inductive Owes (eap : EapSm) (success : Bool) : Prop where
  | fresh (hselected : eap.selectedMethod = eapTypeNone) (hdecision : eap.decision = .fail)
      (hkey : eap.eapKeyData = none) (havailable : eap.eapKeyAvailable = false) (hsuccess : success = false)
  | chosen (m : Method) (hselected : eap.selectedMethod ≠ eapTypeNone) (hm : ∀ m', eap.m = some m' → m' = m)
      (hlast : lastSelected eap.trace = some (m, true))
      (hdecision : eap.decision ≠ .fail → latestResult eap.trace = some (m, eap.decision))
      (hkey : ∀ k, eap.eapKeyData = some k → ∃ decision, .processed m decision (some k) ∈ session eap.trace)
      (hsuccess : eap.eapKeyAvailable = true ∨ success = true → succeeded eap.trace = some m)

def AllEarned (l : List Event) : Prop := ∀ newer older, l = newer ++ .success :: older → Earned older

structure Earning (sm : Sm) : Prop where
  owes : Owes sm.eap sm.eapSuccess
  earned : AllEarned sm.eap.trace
  unasked : ∀ req, sm.eapReqData = some req → asksNone req → sm.eap.m = none
  parsed : sm.eap.state = .received → sm.eap.rxReq = true →
    (sm.eap.reqMethod = eapTypeNone ↔ ∃ req, sm.eapReqData = some req ∧ asksNone req)
  ietf : sm.eap.state = .received → sm.eap.reqMethod = eapTypeNone → sm.eap.reqVendor = eapVendorIetf
  refused : sm.eap.state = .getMethod → sm.eap.selectedMethod = eapTypeNone → sm.eap.reqMethod = eapTypeNone →
    sm.eap.m = none

theorem AllEarned.cons {l : List Event} (h : AllEarned l) (e : Event) (he : e = .success → Earned l) :
    AllEarned (e :: l) := by
  intro newer older hl
  cases newer with
  | nil =>
    obtain ⟨rfl, rfl⟩ := List.cons.inj hl
    exact he rfl
  | cons x newer =>
    obtain ⟨-, hl⟩ := List.cons.inj hl
    exact h newer older hl

variable {eap : EapSm} {success : Bool}

theorem parseEapReq_none {data : Option Octets} (hreq : (parseEapReq c eap data).rxReq = true) :
    (parseEapReq c eap data).reqMethod = eapTypeNone ↔ ∃ req, data = some req ∧ asksNone req := by
  unfold parseEapReq at hreq ⊢
  cases data with
  | none => simp at hreq
  | some req =>
    dsimp only at hreq ⊢
    split at hreq
    · simp at hreq
    rename_i hlen
    split at hreq
    · rename_i hcode
      split at hreq
      · simp at hreq
      rename_i hfive
      have hfour : 4 < req.length := by omega
      have hfield : ofBE (field req 4 1) = (req[4]).toNat := by
        rw [field, List.drop_eq_getElem_cons hfour, List.take_succ_cons, List.take_zero]
        simp [ofBE]
      have htype : ofBE (field req 4 1) = eapTypeNone ↔ ∃ x, some req = some x ∧ asksNone x := by
        rw [hfield]
        constructor
        · intro h
          refine ⟨req, rfl, hcode, ?_⟩
          rw [List.getElem?_eq_getElem hfour]
          exact congrArg some (UInt8.toNat_inj.mp h)
        · rintro ⟨x, hx, -, hnone⟩
          cases hx
          rw [List.getElem?_eq_getElem hfour] at hnone
          rw [Option.some.inj hnone]
          rfl
      rw [if_neg hlen, if_pos hcode, if_neg hfive]
      split
      · exact htype
      · exact htype
    · repeat' split at hreq
      all_goals simp at hreq

theorem parseEapReq_vendor (eap : EapSm) (data : Option Octets) {r : EapSm} (h : parseEapReq c eap data = r) :
    r.reqVendor = eapVendorIetf ∨ r.reqMethod = typeExpanded := by
  unfold parseEapReq at h
  cases data with
  | none => exact .inl (h ▸ rfl)
  | some req =>
    dsimp only at h
    split at h
    case isTrue => exact .inl (h ▸ rfl)
    split at h
    case isTrue =>
      split at h
      case isTrue => exact .inl (h ▸ rfl)
      split at h
      case isTrue hexpanded => exact .inr (h ▸ hexpanded.1)
      case isFalse => exact .inl (h ▸ rfl)
    split at h
    case isTrue => split at h <;> exact .inl (h ▸ rfl)
    split at h
    case isTrue => exact .inl (h ▸ rfl)
    split at h <;> exact .inl (h ▸ rfl)

theorem parseEapReq_ietf {data : Option Octets}
    (hmethod : (parseEapReq c eap data).reqMethod = eapTypeNone) :
    (parseEapReq c eap data).reqVendor = eapVendorIetf := by
  rcases parseEapReq_vendor (c := c) eap data rfl with hvendor | hexpanded
  · exact hvendor
  · exact absurd (hmethod.symm.trans hexpanded) (by decide)

-- The variables that the history is about
def owedPart (eap : EapSm) : Option Method × ℕ × Decision × Option Octets × Bool × List Event :=
  (eap.m, eap.selectedMethod, eap.decision, eap.eapKeyData, eap.eapKeyAvailable, eap.trace)

theorem Owes.congr {eap' : EapSm} (h : Owes eap success) (hpart : owedPart eap' = owedPart eap) :
    Owes eap' success := by
  simp only [owedPart, Prod.mk.injEq] at hpart
  obtain ⟨hm, hselected, hdecision, hkey, havailable, htrace⟩ := hpart
  cases h with
  | fresh h1 h2 h3 h4 h5 =>
    exact .fresh (hselected.trans h1) (hdecision.trans h2) (hkey.trans h3) (havailable.trans h4) h5
  | chosen m h1 h2 h3 h4 h5 h6 =>
    refine .chosen m (hselected ▸ h1) (hm ▸ h2) (htrace ▸ h3) ?_ ?_ ?_
    · rw [hdecision, htrace]
      exact h4
    · rw [hkey, htrace]
      exact h5
    · rw [havailable, htrace]
      exact h6

theorem Owes.finished (h : Owes eap success) (resp noResp ok nok : Bool) :
    Owes { eap with trace := .finished resp noResp ok nok :: eap.trace } success := by
  cases h with
  | fresh h1 h2 h3 h4 h5 => exact .fresh h1 h2 h3 h4 h5
  | chosen m h1 h2 h3 h4 h5 h6 =>
    refine .chosen m h1 h2 h3 h4 ?_ h6
    intro k hk
    obtain ⟨decision, hmem⟩ := h5 k hk
    exact ⟨decision, mem_session_cons (by simp) hmem⟩

-- A decision other than `DECISION_FAIL` is the result of a method that was allowed.
theorem Owes.earned (h : Owes eap success) (hdecision : eap.decision ≠ .fail) : Earned eap.trace := by
  cases h with
  | fresh _ hfail => exact absurd hfail hdecision
  | chosen m _ _ hlast hresult => exact ⟨m, eap.decision, hresult hdecision, hdecision, hlast⟩

theorem Owes.succeed {eap' : EapSm} {success' : Bool} (h : Owes eap success)
    (hdecision : eap.decision ≠ .fail)
    (hpart : owedPart eap' =
      (eap.m, eap.selectedMethod, eap.decision, eap.eapKeyData, eap.eapKeyAvailable || eap.eapKeyData.isSome,
        .success :: eap.trace)) : Owes eap' success' := by
  simp only [owedPart, Prod.mk.injEq] at hpart
  obtain ⟨hm, hselected, hdecision', hkey, -, htrace⟩ := hpart
  cases h with
  | fresh _ hfail => exact absurd hfail hdecision
  | chosen m h1 h2 h3 h4 h5 h6 =>
    refine .chosen m (hselected ▸ h1) (hm ▸ h2) (htrace ▸ h3) ?_ ?_ ?_
    · rw [hdecision', htrace]
      exact h4
    · intro k hk
      obtain ⟨decision, hmem⟩ := h5 k (hkey ▸ hk)
      rw [htrace]
      exact ⟨decision, mem_session_cons (by simp) hmem⟩
    · intro _
      rw [htrace, succeeded, h4 hdecision]
      rfl

theorem Earning.plain (h : Earning sm) (c : Ctx) (a : Answer) (t : EapState)
    (ht : t ∈ [EapState.disabled, .idle, .sendResponse, .discard, .identity, .notification, .retransmit, .failure]) :
    Earning (eapEntry c a t sm) := by
  have hpart : owedPart (eapEntry c a t sm).eap = owedPart sm.eap := by
    cases t
    case sendResponse =>
      simp only [eapEntry]
      unfold eapSendResponse
      dsimp only
      split <;> rfl
    all_goals simp at ht
    all_goals rfl
  have hsuccess : (eapEntry c a t sm).eapSuccess = sm.eapSuccess := by
    rw [(eapEntry_vars c a t sm).2.2.1]
    cases t <;> simp at ht
    all_goals rfl
  have hdata : (eapEntry c a t sm).eapReqData = sm.eapReqData :=
    (congrArg Sm.eapReqData (eapEntry_eapolPart c a t sm) :)
  have hstate : t ≠ .received ∧ t ≠ .getMethod := by
    cases t <;> simp at ht ⊢
  have hm : (eapEntry c a t sm).eap.m = sm.eap.m := congrArg Prod.fst hpart
  have htrace : (eapEntry c a t sm).eap.trace = sm.eap.trace := congrArg (·.2.2.2.2.2) hpart
  constructor
  · rw [hsuccess]
    exact h.owes.congr hpart
  · rw [htrace]
    exact h.earned
  · rw [hdata, hm]
    exact h.unasked
  · rw [eapEntry_state]
    exact fun hs => absurd hs hstate.1
  · rw [eapEntry_state]
    exact fun hs => absurd hs hstate.1
  · rw [eapEntry_state]
    exact fun hs => absurd hs hstate.2

theorem Earning.initialize (h : Earning sm) (c : Ctx) (a : Answer) : Earning (eapEntry c a .initializing sm) := by
  constructor
  · exact .fresh rfl rfl rfl rfl rfl
  · exact h.earned.cons _ (fun he => by cases he)
  · intro req hdata hnone
    have hm := h.unasked req hdata hnone
    simp [eapEntry, eapInitialize, hm]
  · simp
  · simp
  · simp

theorem Earning.receive (h : Earning sm) (c : Ctx) (a : Answer) : Earning (eapEntry c a .received sm) := by
  have hpart := parseEapReq_sessionPart c sm.eap sm.eapReqData
  have howed : owedPart (parseEapReq c sm.eap sm.eapReqData) = owedPart sm.eap :=
    (congrArg owedPart hpart :)
  have hm : (parseEapReq c sm.eap sm.eapReqData).m = sm.eap.m := congrArg Prod.fst howed
  have htrace : (parseEapReq c sm.eap sm.eapReqData).trace = sm.eap.trace := congrArg (·.2.2.2.2.2) howed
  constructor
  · have howes : Owes (eapReceived c sm).eap sm.eapSuccess := h.owes.congr howed
    exact howes
  · show AllEarned (parseEapReq c sm.eap sm.eapReqData).trace
    rw [htrace]
    exact h.earned
  · intro req hdata hnone
    exact hm.trans (h.unasked req hdata hnone)
  · exact fun _ hreq => parseEapReq_none hreq
  · exact fun _ hmethod => parseEapReq_ietf hmethod
  · simp

theorem Earning.getMethod (h : Earning sm) (hstate : sm.eap.state = .received) (hreq : sm.eap.rxReq = true)
    (hselected : sm.eap.selectedMethod = eapTypeNone) : Earning (eapEntry c a .getMethod sm) := by
  have hnone : sm.eap.reqMethod = eapTypeNone → sm.eap.m = none := by
    intro hmethod
    obtain ⟨req, hdata, hasks⟩ := (h.parsed hstate hreq).mp hmethod
    exact h.unasked req hdata hasks
  have hkept : ∀ eap : EapSm, eap.state = .getMethod → owedPart eap = owedPart sm.eap → eap.reqMethod = sm.eap.reqMethod →
      Earning { sm with eap := eap } := by
    intro eap hs hpart hmethod
    have hm : eap.m = sm.eap.m := congrArg Prod.fst hpart
    have htrace : eap.trace = sm.eap.trace := congrArg (·.2.2.2.2.2) hpart
    refine ⟨h.owes.congr hpart, ?_, ?_, by simp [hs], by simp [hs], ?_⟩
    · show AllEarned eap.trace
      rw [htrace]
      exact h.earned
    · show ∀ req, sm.eapReqData = some req → asksNone req → eap.m = none
      rw [hm]
      exact h.unasked
    · intro _ _ hzero
      exact hm.trans (hnone (hmethod.symm.trans hzero))
  obtain ⟨hdecision, hkey, havailable, hsuccess⟩ : sm.eap.decision = .fail ∧ sm.eap.eapKeyData = none ∧
      sm.eap.eapKeyAvailable = false ∧ sm.eapSuccess = false := by
    cases h.owes with
    | fresh _ h1 h2 h3 h4 => exact ⟨h1, h2, h3, h4⟩
    | chosen m hne => exact absurd hselected hne
  simp only [eapEntry]
  unfold eapGetMethod
  dsimp only
  split
  · exact hkept _ rfl rfl rfl
  rename_i hallow
  split
  · have hallowed : eapAllowedMethod sm.config (reqTarget sm.eap) = true ∧ reqTarget sm.eap ∈ c.methods := by
      simpa [eapSmAllowMethod, reqTarget] using hallow
    have htype : sm.eap.reqMethod ≠ eapTypeNone := by
      intro hmethod
      have htarget : reqTarget sm.eap = ⟨eapVendorIetf, eapTypeNone⟩ := by
        simp [reqTarget, hmethod, h.ietf hstate hmethod, eapTypeNone, typeExpanded]
      exact c.noNone (htarget ▸ hallowed.2)
    refine ⟨.chosen (reqTarget sm.eap) htype ?_ ?_ ?_ ?_ ?_, h.earned.cons _ (fun he => by cases he), ?_, by simp, by simp, ?_⟩
    · exact fun m' hm' => (Option.some.inj hm').symm
    · exact congrArg (fun b => some (reqTarget sm.eap, b)) hallowed.1
    · exact fun hne => absurd hdecision hne
    · intro k hk
      cases hkey.symm.trans hk
    · rintro (hk | hk)
      · cases havailable.symm.trans hk
      · cases hsuccess.symm.trans hk
    · intro req hdata hasks
      exact absurd ((h.parsed hstate hreq).mpr ⟨req, hdata, hasks⟩) htype
    · exact fun _ hzero => absurd hzero htype
  · have hfresh : ∀ eap : EapSm, eap.state = .getMethod → owedPart eap =
        (none, eapTypeNone, sm.eap.decision, sm.eap.eapKeyData, sm.eap.eapKeyAvailable, sm.eap.trace) →
        Earning { sm with eap := eap } := by
      intro eap hs hpart
      simp only [owedPart, Prod.mk.injEq] at hpart
      obtain ⟨h1, h2, h3, h4, h5, h6⟩ := hpart
      refine ⟨.fresh h2 (h3.trans hdecision) (h4.trans hkey) (h5.trans havailable) hsuccess, ?_, fun _ _ _ => h1,
        by simp [hs], by simp [hs], fun _ _ _ => h1⟩
      show AllEarned eap.trace
      rw [h6]
      exact h.earned
    split
    · exact hfresh _ rfl rfl
    · exact hfresh _ rfl rfl

theorem Earning.process (h : Earning sm) (hmethod : sm.eap.selectedMethod ≠ eapTypeNone ∨ sm.eap.m = none) :
    Earning (eapEntry c a .method sm) := by
  have hkept : ∀ eap : EapSm, eap.state = .method → owedPart eap = owedPart sm.eap → Earning { sm with eap := eap } := by
    intro eap hs hpart
    have hm : eap.m = sm.eap.m := congrArg Prod.fst hpart
    have htrace : eap.trace = sm.eap.trace := congrArg (·.2.2.2.2.2) hpart
    refine ⟨h.owes.congr hpart, ?_, ?_, by simp [hs], by simp [hs], by simp [hs]⟩
    · show AllEarned eap.trace
      rw [htrace]
      exact h.earned
    · show ∀ req, sm.eapReqData = some req → asksNone req → eap.m = none
      rw [hm]
      exact h.unasked
  simp only [eapEntry]
  unfold eapMethod
  split
  · exact hkept _ rfl rfl
  rename_i m hm
  have hselected : sm.eap.selectedMethod ≠ eapTypeNone := hmethod.resolve_right (by simp [hm])
  dsimp only
  split
  · exact hkept _ rfl rfl
  refine ⟨?_, h.earned.cons _ (fun he => by cases he), h.unasked, by simp, by simp, by simp⟩
  cases h.owes with
  | fresh hnone => exact absurd hnone hselected
  | chosen m' _ hm' hlast _ hkey hsuccess =>
    obtain rfl := hm' m hm
    refine .chosen m hselected hm' hlast (fun _ => rfl) ?_ hsuccess
    intro k hk
    by_cases havailable : a.ret.keyAvailable = true
    · simp only [havailable, if_true] at hk ⊢
      rw [hk]
      exact ⟨a.ret.decision, by simp [session]⟩
    · simp only [havailable] at hk ⊢
      obtain ⟨decision, hmem⟩ := hkey k hk
      exact ⟨decision, mem_session_cons (by simp) hmem⟩

theorem Earning.succeed (h : Earning sm) (c : Ctx) (a : Answer) (hdecision : sm.eap.decision ≠ .fail) :
    Earning (eapEntry c a .success sm) :=
  ⟨h.owes.succeed hdecision rfl, h.earned.cons _ fun _ => h.owes.earned hdecision, h.unasked, by simp, by simp, by simp⟩

theorem eapStepIdle_success (hmove : eapStepIdle sm = .enter .success) : sm.eap.decision ≠ .fail := by
  intro hfail
  unfold eapStepIdle at hmove
  simp only [hfail] at hmove
  repeat' split at hmove
  all_goals simp_all

theorem eapStepReceived_success (hmove : eapStepReceived eap = .success) : eap.decision ≠ .fail := by
  simpa using eapStepReceived_cases eap hmove

theorem Earning.step (h : Earning sm) (a : Answer) : Earning (eapStep c a sm).1 := by
  have hcases := eapStep_cases c a sm
  generalize eapStep c a sm = r at hcases ⊢
  cases hcases with
  | restart => exact h.initialize c a
  | disabled => exact h.plain c a .disabled (by simp)
  | tooMany =>
    have hcount : Earning (countRound sm) := ⟨h.owes.congr rfl, h.earned, h.unasked, h.parsed, h.ietf, h.refused⟩
    exact hcount.plain c a .failure (by simp)
  | exceeded => exact h
  | stay => exact h
  | enter t _ _ _ _ hmove =>
    show Earning (eapEntry c a t sm)
    rcases eapStepLocal_cases hmove with ⟨-, rfl⟩ | ⟨-, rfl⟩ | ⟨-, -, rfl⟩ | ⟨hs, -, ht⟩ | ⟨hs, ht⟩ | ⟨hs, hsel, rfl⟩ |
      ⟨-, -, rfl⟩ | ⟨-, -, rfl⟩ | ⟨-, -, rfl⟩ | ⟨-, rfl⟩ | ⟨-, rfl⟩
    case inr.inl => exact h.initialize c a
    case inr.inr.inl => exact h.receive c a
    case inr.inr.inr.inl =>
      simp only [eapStepLocal, hs] at hmove
      simp at ht
      rcases ht with rfl | rfl
      · exact h.succeed c a (eapStepIdle_success hmove)
      · exact h.plain c a .failure (by simp)
    case inr.inr.inr.inr.inl =>
      have hmem := eapStepReceived_mem sm.eap
      rw [← ht] at hmem
      simp at hmem
      rcases hmem with rfl | rfl | rfl | rfl | rfl | rfl | rfl | rfl
      · exact h.succeed c a (eapStepReceived_success ht.symm)
      · exact h.plain c a .failure (by simp)
      · exact h.plain c a .retransmit (by simp)
      · exact h.plain c a .notification (by simp)
      · exact h.plain c a .identity (by simp)
      · exact h.getMethod hs (eapStepReceived_getMethod ht.symm).1 (eapStepReceived_getMethod ht.symm).2
      · exact h.process (Or.inl (eapStepReceived_method ht.symm))
      · exact h.plain c a .discard (by simp)
    case inr.inr.inr.inr.inr.inl =>
      refine h.process ?_
      by_cases hnone : sm.eap.selectedMethod = eapTypeNone
      · exact Or.inr (h.refused hs hnone (hsel.symm.trans hnone))
      · exact Or.inl hnone
    all_goals exact h.plain c a _ (by simp)

end Invariant

section Machines

variable {c : Ctx} {set : Bool} {sm s : Sm}

-- Between the calls of the EAP machine
structure Secured (sm : Sm) : Prop where
  settled : Settled sm
  owes : Owes sm.eap sm.eapSuccess
  earned : AllEarned sm.eap.trace
  unasked : ∀ req, sm.eapReqData = some req → asksNone req → sm.eap.m = none

theorem Secured.earning (h : Secured sm) : Earning sm := by
  have hrest := h.settled.rest
  refine ⟨h.owes, h.earned, h.unasked, fun hs => ?_, fun hs => ?_, fun hs => ?_⟩
  · simp [hs] at hrest
  · simp [hs] at hrest
  · simp [hs] at hrest

theorem Secured.same (h : Secured sm) (heap : s.eap = sm.eap) (hsuccess : s.eapSuccess = sm.eapSuccess)
    (hdata : s.eapReqData = sm.eapReqData) : Secured s :=
  ⟨h.settled.mono (congrArg EapSm.state heap) (congrArg EapSm.numRounds heap), by rw [heap, hsuccess]; exact h.owes,
    by rw [heap]; exact h.earned, by rw [heap, hdata]; exact h.unasked⟩

theorem paeStep_same (sm : Sm) : (paeStep sm).1.eap = sm.eap ∧ (paeStep sm).1.eapSuccess = sm.eapSuccess ∧
    (paeStep sm).1.eapReqData = sm.eapReqData := by
  have hcases := paeStep_cases sm
  generalize paeStep sm = r at hcases ⊢
  obtain ⟨valid, hvalid⟩ := acceptPlaintext_eq sm
  cases hcases with
  | logoff => exact ⟨rfl, rfl, rfl⟩
  | disconnected => exact ⟨rfl, rfl, rfl⟩
  | force t => cases t <;> exact ⟨rfl, rfl, rfl⟩
  | stay => rw [hvalid]; exact ⟨rfl, rfl, rfl⟩
  | enter t => rw [hvalid]; cases t <;> exact ⟨rfl, rfl, rfl⟩

theorem Secured.pae (h : Secured sm) : Secured (paeStep sm).1 :=
  h.same (paeStep_same sm).1 (paeStep_same sm).2.1 (paeStep_same sm).2.2

theorem Secured.key (h : Secured sm) (heffect : KeyEffect sm s) : Secured s := by
  have hpart := heffect.part
  have hstate : s.eap.state = sm.eap.state := (congrArg (fun s => s.eap.state) hpart :)
  have hrounds : s.eap.numRounds = sm.eap.numRounds := (congrArg (fun s => s.eap.numRounds) hpart :)
  have hm : s.eap.m = sm.eap.m := (congrArg (fun s => s.eap.m) hpart :)
  have hselected : s.eap.selectedMethod = sm.eap.selectedMethod := (congrArg (fun s => s.eap.selectedMethod) hpart :)
  have hdecision : s.eap.decision = sm.eap.decision := (congrArg (fun s => s.eap.decision) hpart :)
  have hkey : s.eap.eapKeyData = sm.eap.eapKeyData := (congrArg (fun s => s.eap.eapKeyData) hpart :)
  have hdata : s.eapReqData = sm.eapReqData := (congrArg Sm.eapReqData hpart :)
  have hunasked : ∀ req, s.eapReqData = some req → asksNone req → s.eap.m = none := by
    rw [hdata, hm]
    exact h.unasked
  cases heffect with
  | none _ hsuccess htrace havailable =>
    refine ⟨h.settled.mono hstate hrounds, ?_, by rw [htrace]; exact h.earned, hunasked⟩
    rw [hsuccess]
    refine h.owes.congr ?_
    rw [owedPart, owedPart, hm, hselected, hdecision, hkey, havailable, htrace]
  | success _ hfail hsuccess htrace havailable =>
    refine ⟨h.settled.mono hstate hrounds, h.owes.succeed hfail ?_, ?_, hunasked⟩
    · rw [owedPart, hm, hselected, hdecision, hkey, havailable, htrace]
    · rw [htrace]
      exact h.earned.cons _ fun _ => h.owes.earned hfail

theorem Owes.abort {eap eap' : EapSm} {success : Bool} (h : Owes eap success)
    (hpart : owedPart eap' = (eap.m, eap.selectedMethod, eap.decision, none, eap.eapKeyAvailable, eap.trace)) :
    Owes eap' false := by
  simp only [owedPart, Prod.mk.injEq] at hpart
  obtain ⟨hm, hselected, hdecision, hkey, havailable, htrace⟩ := hpart
  cases h with
  | fresh h1 h2 h3 h4 h5 => exact .fresh (hselected.trans h1) (hdecision.trans h2) hkey (havailable.trans h4) rfl
  | chosen m h1 h2 h3 h4 h5 h6 =>
    refine .chosen m (hselected ▸ h1) (hm ▸ h2) (htrace ▸ h3) ?_ ?_ ?_
    · rw [hdecision, htrace]
      exact h4
    · intro k hk
      cases hkey.symm.trans hk
    · rw [havailable, htrace]
      rintro (hk | hk)
      · exact h6 (Or.inl hk)
      · cases hk

theorem Secured.be (h : Secured sm) : Secured (beStep sm).1 := by
  have hcases := beStep_cases sm
  generalize beStep sm = r at hcases ⊢
  have habort : Secured (beEntry .initializing sm) :=
    ⟨h.settled.mono rfl rfl, h.owes.abort rfl, h.earned, fun _ hdata => by cases hdata⟩
  cases hcases with
  | abort => exact habort
  | stay => exact h
  | enter t =>
    cases t
    case initializing => exact habort
    case response => exact ⟨h.settled.mono rfl rfl, h.owes.congr rfl, h.earned, h.unasked⟩
    all_goals exact h.same rfl rfl rfl

theorem Secured.eap (h : Secured sm) (c : Ctx) (answers : ℕ → Answer) : Secured (eapPeerSmStep c answers sm).1 := by
  have hsettled := (eapPeerSmStep_settled c answers h.settled).1
  have hloop : Earning (eapLoop c answers eapLoopBound sm false).1 :=
    eapLoop_keeps c answers (J := Earning) h.earning (fun k _ hs => hs.step (answers k)) (fun _ hs => hs)
  revert hsettled
  unfold eapPeerSmStep
  dsimp only
  split
  · exact fun hsettled =>
      ⟨hsettled, hloop.owes.finished _ _ _ _, hloop.earned.cons _ (fun he => by cases he), hloop.unasked⟩
  · exact fun hsettled => ⟨hsettled, hloop.owes, hloop.earned, hloop.unasked⟩

theorem Secured.iteration (h : Secured sm) (c : Ctx) (env : Env) : Secured (iteration c env sm).1 :=
  ((h.pae.key (keyRxStep_effect c env.setWepKey _)).be).eap c env.eap

theorem Secured.iterations (h : Secured sm) (c : Ctx) (env : ℕ → Env) (n : ℕ) : Secured (iterations c env n sm).1 := by
  induction n generalizing sm with
  | zero => exact h
  | succ n ih =>
    rw [EapolSupp.iterations]
    split
    · exact ih (h.iteration c (env n))
    · exact h.iteration c (env n)

theorem asksNone_field {buf : Octets} {n : ℕ} (h : asksNone (field buf 4 n)) :
    buf[4]? = some eapCodeRequest ∧ buf[8]? = some 0 := by
  have hget : ∀ i x, (field buf 4 n)[i]? = some x → buf[4 + i]? = some x := by
    intro i x hx
    rw [field, List.getElem?_take] at hx
    split at hx
    · rwa [List.getElem?_drop] at hx
    · cases hx
  exact ⟨hget 0 _ h.1, hget 4 _ h.2⟩

theorem Secured.apply (h : Secured sm) {i : Input} (hi : Undisputed sm i) : Secured (i.op.apply sm).1 := by
  obtain ⟨op, env⟩ := i
  obtain ⟨hop, hrx⟩ := hi
  cases op with
  | rxEapol buf alloc =>
    simp only [Op.apply]
    unfold eapolSmRxEapol
    split
    · exact h
    split
    · exact h
    dsimp only
    split
    · rename_i htype
      have hcached : Secured (if sm.cachedPmk then abortCached sm else sm) := by
        split
        · exact h.same rfl rfl rfl
        · exact h
      have hm : (if sm.cachedPmk then abortCached sm else sm).eap.m = sm.eap.m := by split <;> rfl
      split
      · refine ⟨hcached.settled.mono rfl rfl, hcached.owes, hcached.earned, fun req hdata hasks => ?_⟩
        cases hdata
        obtain ⟨hcode, hnone⟩ := asksNone_field hasks
        exact hm.trans (hrx ⟨htype, hcode, hnone⟩)
      · exact ⟨hcached.settled.mono rfl rfl, hcached.owes, hcached.earned, fun _ hdata => by cases hdata⟩
    split
    · split
      · exact h
      split
      · exact h
      split <;> exact h.same rfl rfl rfl
    · exact h
  | notifyEapSuccess | notifyCached => exact hop.elim
  | notifyConfig config conf =>
    cases conf with
    | none => exact h.same rfl rfl rfl
    | some conf => exact ⟨h.settled.mono rfl rfl, h.owes.congr rfl, h.earned, h.unasked⟩
  | notifyCtrlResponse =>
    simp only [Op.apply]
    split
    · exact h.same rfl rfl rfl
    · exact h
  | notifyLowerLayer => exact h.key (notifyLowerLayerSuccess_effect sm)
  | invalidateCachedSession =>
    refine ⟨h.settled.mono rfl rfl, ?_, h.earned, fun _ _ _ => rfl⟩
    cases h.owes with
    | fresh h1 h2 h3 h4 h5 => exact .fresh h1 h2 h3 h4 h5
    | chosen m h1 h2 h3 h4 h5 h6 => exact .chosen m h1 (fun _ hm => by cases hm) h3 h4 h5 h6
  | _ => exact h.same rfl rfl rfl

theorem Secured.exec (h : Secured sm) (c : Ctx) {i : Input} (hi : Undisputed sm i) : Secured (exec c sm i) := by
  have happly := h.apply hi
  unfold EapolSupp.exec call
  dsimp only
  split
  · exact happly.iterations c i.env 100
  · exact happly

theorem eapolSmStart_secured : Secured eapolSmStart where
  settled := (eapolSmStart_resting).settled
  owes := .fresh rfl rfl rfl rfl rfl
  earned := fun newer older hl => absurd hl (by simp [eapolSmStart])
  unasked := fun _ hdata => by cases hdata

-- What is owed to the history is what the interface hands out.
theorem Secured.successEarned (h : Secured sm) : SuccessEarned sm := by
  refine ⟨h.earned, ?_, ?_⟩
  · intro hsuccess
    cases h.owes with
    | fresh _ _ _ _ hnone => exact absurd (hsuccess.symm.trans hnone) (by decide)
    | chosen m _ _ _ _ _ hm => rw [hm (Or.inr hsuccess)]; rfl
  · intro len k hk
    unfold getKey at hk
    split at hk
    · rename_i havailable
      split at hk
      · cases hk
      rename_i key hkey
      split at hk
      · cases hk
      cases h.owes with
      | fresh _ _ hnone => exact absurd (hkey.symm.trans hnone) (by simp)
      | chosen m _ _ _ _ hdelivered hm =>
        obtain ⟨decision, hmem⟩ := hdelivered key hkey
        cases hk
        exact ⟨m, decision, key, hm (Or.inl havailable), hmem, rfl⟩
    · cases hk

end Machines

-- As long as no request of the type `EAP_TYPE_NONE` comes while a method is kept, every success is earned.
theorem success_is_earned (c : Ctx) (env env' : ℕ → Env) (sm : Sm)
    (hrun : Runs (exec c) Undisputed (eapolSmInit c env env') sm) : SuccessEarned sm := by
  have hsecured : Secured sm := by
    refine hrun.rule (I := Secured) ?_ (fun s i hs hi => hs.exec c hi)
    rw [eapolSmInit_eq]
    exact eapolSmStart_secured
  exact hsecured.successEarned

def twoMethods : Ctx where
  methods := [⟨eapVendorIetf, eapTypeTls⟩, ⟨eapVendorIetf, eapTypePeap⟩]
  md5 := fun _ => []
  hmacMd5 := fun _ _ => []
  noNone := by decide

def answersWith (ret : MethodRet) : ℕ → Env := fun _ => { eap := fun _ => { hasReauthData := true, ret := ret } }

def requestOf (id type : UInt8) (ret : MethodRet) : Input :=
  { op := .rxEapol [2, 0, 0, 5, 1, id, 0, 5, type] true, env := answersWith ret }

def successOf (id : UInt8) : Input := { op := .rxEapol [2, 0, 0, 4, 3, id, 0, 4] true, env := answersWith {} }

def portSet (enabled : Bool) : Input := { op := .notifyPortEnabled enabled, env := answersWith {} }

def earnedRun : List Input :=
  [portSet true, requestOf 1 13 { decision := .uncondSucc, keyAvailable := true, key := some [1], resp := some [] },
    successOf 1]

theorem success_is_earned_tls :
    getKey (earnedRun.foldl (exec twoMethods) eapolSmStart) 1 = .key [1] ∧
      SuccessEarned (earnedRun.foldl (exec twoMethods) eapolSmStart) := by
  refine ⟨rfl, success_is_earned twoMethods (fun _ => {}) (fun _ => {}) _ ?_⟩
  rw [eapolSmInit_eq]
  refine Runs.of_list earnedRun ⟨⟨trivial, trivial⟩, ⟨trivial, ?_⟩, ⟨trivial, ?_⟩, trivial⟩
  · exact fun hnone => absurd hnone.2.2 (by decide)
  · exact fun hnone => absurd hnone.2.1 (by decide)

-- The method of one session is kept for fast reauthentication. In the next one, a request of the type
-- `EAP_TYPE_NONE` goes to it, and what it delivers is the key of the method that is selected later.
def keptRun : List Input :=
  [{ op := .notifyConfig (some {}) (some { fastReauth := true }) }, portSet true, requestOf 1 13 { resp := some [] },
    portSet false, portSet true, requestOf 2 0 { keyAvailable := true, key := some [1], resp := some [] },
    requestOf 3 25 { decision := .uncondSucc, methodState := .done, resp := some [] }, successOf 3]

theorem key_of_kept_method :
    Runs (exec twoMethods) (fun _ i => Unforced i.op) (eapolSmInit twoMethods (fun _ => {}) fun _ => {})
        (keptRun.foldl (exec twoMethods) eapolSmStart) ∧
      getKey (keptRun.foldl (exec twoMethods) eapolSmStart) 1 = .key [1] ∧
      ¬SuccessEarned (keptRun.foldl (exec twoMethods) eapolSmStart) := by
  have hrun : Runs (exec twoMethods) (fun _ i => Unforced i.op) eapolSmStart
      (keptRun.foldl (exec twoMethods) eapolSmStart) :=
    Runs.of_list keptRun ⟨trivial, trivial, trivial, trivial, trivial, trivial, trivial, trivial, trivial⟩
  have hend : getKey (keptRun.foldl (exec twoMethods) eapolSmStart) 1 = .key [1] ∧
      succeeded (keptRun.foldl (exec twoMethods) eapolSmStart).eap.trace = some ⟨eapVendorIetf, eapTypePeap⟩ ∧
      session (keptRun.foldl (exec twoMethods) eapolSmStart).eap.trace =
        [.finished false true true false, .success, .finished true false false false,
          .processed ⟨eapVendorIetf, eapTypePeap⟩ .uncondSucc none, .selected ⟨eapVendorIetf, eapTypePeap⟩ true,
          .finished true false false false, .processed ⟨eapVendorIetf, eapTypeTls⟩ .fail (some [1])] := by
    decide
  obtain ⟨hkey, hsucceeded, hsession⟩ := hend
  rw [eapolSmInit_eq]
  refine ⟨hrun, hkey, fun hearned => ?_⟩
  obtain ⟨m, decision, key, hm, hmem, -⟩ := hearned.key 1 [1] hkey
  rw [hsucceeded] at hm
  cases hm
  rw [hsession] at hmem
  simp [eapTypePeap, eapTypeTls] at hmem

end WpaSupplicant.EapolSupp
