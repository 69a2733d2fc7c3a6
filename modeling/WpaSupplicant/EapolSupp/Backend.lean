import WpaSupplicant.EapolSupp.Lemmas
import WpaSupplicant.Lib.Machine

namespace WpaSupplicant.EapolSupp

open Lib.Octets Lib.Buffer Lib.StateMachine Lib.Machine
open EapTls (eapCodeRequest)

def Answer.responds (a : Answer) : Bool :=
  a.alloc && (a.ret.ignore || a.ret.resp.isSome) && (a.initOk || !a.pendingReq)

def identityBuilt (a : Answer) : Option PeerConfig → Bool
  | none => false
  | some conf =>
    if (conf.anonymousIdentity.or conf.identity).isSome then !conf.pcsc || a.scardPin
    else conf.pcsc && a.scardPin && a.scardIdentity.isSome

-- The packet is an EAP-Request/Identity.
def asksIdentity : Option Octets → Bool
  | none => false
  | some req => decide (req[0]? = some eapCodeRequest ∧ 5 ≤ ofBE (field req 2 2) ∧
      ofBE (field req 2 2) ≤ req.length ∧ ofBE (field req 4 1) = eapTypeIdentity)

-- One of the results that the backend waits for
def Answered (sm : Sm) : Prop :=
  sm.eapResp = true ∨ sm.eapNoResp = true ∨ sm.eapSuccess = true ∨ sm.eapFail = true

-- The EAP machine tells its result, or can answer a request.
structure Ready (sm : Sm) : Prop where
  success : sm.eap.state = .success → sm.eapSuccess = true
  failure : sm.eap.state = .failure → sm.eapFail = true
  selected : sm.eap.state = .idle → sm.eap.selectedMethod ≠ eapTypeNone → sm.eap.m.isSome = true
  last : sm.eap.state = .idle → sm.eap.lastRespData = none → sm.eap.lastId = -1

-- The backend is in an authentication, or starts one.
def Engaged (sm : Sm) : Prop :=
  sm.be ∈ [BeState.request, .receive, .response] ∨ (sm.be = .idle ∧ sm.suppStart = true)

-- No authentication depends on the results of the EAP machine.
def AtRest (sm : Sm) : Prop := ¬Engaged sm ∧ sm.pae ≠ .restart

-- What is called from outside leaves an authentication alone: a result that it needs is not taken back, and a
-- session that is waiting stays complete.
def Undisturbed (sm : Sm) : Op → Prop
  | .notifyEapSuccess false => AtRest sm ∨ sm.eapSuccess = false
  | .notifyEapFail false => AtRest sm ∨ sm.eapFail = false
  | .notifyCached => ¬Engaged sm ∨ sm.eapSuccess = true ∨ sm.eapFail = true
  | .notifyCtrlResponse => sm.eap.state = .idle → Ready sm
  | .invalidateCachedSession => sm.eap.state ≠ .idle ∨ sm.eap.selectedMethod = eapTypeNone
  | _ => True

-- A request can be handed to the EAP machine.
def Requested (sm : Sm) : Prop := sm.portEnabled = true ∧ (sm.eapolEap = true ∨ sm.eapReq = true)

def Answering (sm : Sm) (env : ℕ → Env) : Prop :=
  sm.eap.forceDisabled = false ∧ ∀ n k, ((env n).eap k).responds = true ∧
    (asksIdentity sm.eapReqData = true → identityBuilt ((env n).eap k) sm.config = true)

section Working

variable {c : Ctx} {a : Answer} {t : EapState} {sm : Sm} {answers : ℕ → Answer}

structure Working (sm : Sm) : Prop where
  clear : sm.eapRestart = false
  on : sm.eap.state ≠ .disabled
  success : sm.eap.state = .success → sm.eapSuccess = true
  failure : sm.eap.state = .failure → sm.eapFail = true
  selected : sm.eap.selectedMethod ≠ eapTypeNone → sm.eap.m.isSome = true
  last : sm.eap.lastRespData = none → sm.eap.lastId = -1
  resp : sm.eap.state ∈ [EapState.identity, .notification, .retransmit] → sm.eap.eapRespData.isSome = true
  method : sm.eap.state = .method → sm.eap.ignore = false → sm.eap.eapRespData.isSome = true
  getMethod : sm.eap.state = .getMethod →
    (sm.eap.selectedMethod ≠ sm.eap.reqMethod → sm.eap.eapRespData.isSome = true) ∧
      (sm.eap.m.isSome = true ∨ sm.eap.eapRespData.isSome = true)
  identity : sm.eap.state = .received → eapStepReceived sm.eap = .identity → asksIdentity sm.eapReqData = true

theorem eapInitialize_working : Working (eapEntry c a .initializing sm) := by
  constructor <;> simp [eapEntry, eapInitialize]

theorem buildNak_isSome (hmethods : c.methods ≠ []) (halloc : a.alloc = true) (config : Option PeerConfig)
    (eap : EapSm) : (buildNak c a config eap).isSome = true := by
  unfold buildNak
  rw [if_neg (by simp [hmethods, halloc])]
  split <;> rfl

variable {eap : EapSm}

-- The three outcomes of building an identity: the configuration is left alone without a response, it is left alone
-- with one, or the identity of the smart card is put into it.
theorem buildIdentity_isSome {config : Option PeerConfig} (halloc : a.alloc = true)
    (hidentity : identityBuilt a config = true) : (buildIdentity a config eap).2.isSome = true := by
  cases config with
  | none => simp [identityBuilt] at hidentity
  | some conf =>
    simp only [identityBuilt] at hidentity
    unfold buildIdentity
    dsimp only
    split
    · split
      · split at hidentity <;> simp_all
      · simp
    rename_i hnone
    have hconf : conf.anonymousIdentity.or conf.identity = none := by
      rw [Option.or_assoc] at hnone
      exact (Option.or_eq_none_iff.mp hnone).2
    rw [hconf] at hidentity
    simp only [Option.isSome_none, Bool.false_eq_true, if_false, Bool.and_eq_true] at hidentity
    obtain ⟨⟨hpcsc, hpin⟩, hcard⟩ := hidentity
    obtain ⟨identity, hcard⟩ := Option.isSome_iff_exists.mp hcard
    simp [hpcsc, hpin, hcard, halloc]

theorem buildIdentity_config {config : Option PeerConfig} {a' : Answer}
    (hidentity : identityBuilt a' config = true) :
    identityBuilt a' (buildIdentity a config eap).1 = true := by
  cases config with
  | none => simp [identityBuilt] at hidentity
  | some conf =>
    unfold buildIdentity
    dsimp only
    split
    · split <;> exact hidentity
    rename_i hnone
    have hconf : conf.anonymousIdentity.or conf.identity = none := by
      rw [Option.or_assoc] at hnone
      exact (Option.or_eq_none_iff.mp hnone).2
    have hpin : conf.pcsc = true ∧ a'.scardPin = true := by
      simp [identityBuilt, hconf] at hidentity
      exact hidentity.1
    split
    · exact hidentity
    split
    · exact hidentity
    split
    · exact hidentity
    · simp [identityBuilt, hpin]

theorem eapStepReceived_method (h : eapStepReceived eap = .method) : eap.selectedMethod ≠ eapTypeNone := by
  simpa using eapStepReceived_cases eap h

theorem eapStepReceived_retransmit (h : eapStepReceived eap = .retransmit) :
    (eap.reqId : ℤ) = eap.lastId := by
  simpa using eapStepReceived_cases eap h

theorem eapStepReceived_getMethod (h : eapStepReceived eap = .getMethod) :
    eap.rxReq = true ∧ eap.selectedMethod = eapTypeNone := by
  simpa using eapStepReceived_cases eap h

theorem eapStepReceived_identity (h : eapStepReceived eap = .identity) :
    eap.rxReq = true ∧ eap.reqMethod = eapTypeIdentity := by
  simpa using eapStepReceived_cases eap h

theorem parseEapReq_identity {data : Option Octets} (hreq : (parseEapReq c eap data).rxReq = true)
    (hmethod : (parseEapReq c eap data).reqMethod = eapTypeIdentity) : asksIdentity data = true := by
  unfold parseEapReq at hreq hmethod
  cases data with
  | none => simp at hreq
  | some req =>
    dsimp only at hreq hmethod
    split at hreq
    · simp at hreq
    rename_i hlen
    split at hreq
    · rename_i hcode
      split at hreq
      · simp at hreq
      rename_i hfive
      rw [if_neg hlen, if_pos hcode, if_neg hfive] at hmethod
      have htype : ofBE (field req 4 1) = eapTypeIdentity := by
        split at hmethod <;> exact hmethod
      simp only [asksIdentity, decide_eq_true_eq]
      exact ⟨hcode, by omega, by omega, htype⟩
    · repeat' split at hreq
      all_goals simp at hreq

theorem Working.plain (h : Working sm)
    (ht : t ∈ [EapState.idle, .discard, .success, .failure, .received]) : Working (eapEntry c a t sm) := by
  simp only [List.mem_cons, List.not_mem_nil, or_false] at ht
  rcases ht with rfl | rfl | rfl | rfl | rfl
  · exact ⟨h.clear, by simp, by simp, by simp, h.selected, h.last, by simp, by simp, by simp, by simp⟩
  · exact ⟨h.clear, by simp, by simp, by simp, h.selected, h.last, by simp, by simp, by simp, by simp⟩
  · exact ⟨h.clear, by simp, fun _ => rfl, by simp, h.selected, h.last, by simp, by simp, by simp, by simp⟩
  · exact ⟨h.clear, by simp, by simp, fun _ => rfl, h.selected, h.last, by simp, by simp, by simp, by simp⟩
  have hparse := parseEapReq_sessionPart c sm.eap sm.eapReqData
  have hm : (parseEapReq c sm.eap sm.eapReqData).m = sm.eap.m := (congrArg EapSm.m hparse :)
  have hsel : (parseEapReq c sm.eap sm.eapReqData).selectedMethod = sm.eap.selectedMethod :=
    (congrArg EapSm.selectedMethod hparse :)
  have hresp : (parseEapReq c sm.eap sm.eapReqData).lastRespData = sm.eap.lastRespData :=
    (congrArg EapSm.lastRespData hparse :)
  have hid : (parseEapReq c sm.eap sm.eapReqData).lastId = sm.eap.lastId := (congrArg EapSm.lastId hparse :)
  refine ⟨h.clear, by simp, by simp, by simp, ?_, ?_, by simp, by simp, by simp, fun _ hmove => ?_⟩
  · simp only [eapEntry, eapReceived, hm, hsel]
    exact h.selected
  · simp only [eapEntry, eapReceived, hresp, hid]
    exact h.last
  · obtain ⟨hreq, hmethod⟩ := eapStepReceived_identity hmove
    exact parseEapReq_identity hreq hmethod

theorem Working.send (h : Working sm) (halloc : a.alloc = true) (hresp : sm.eap.eapRespData.isSome = true) :
    Working (eapEntry c a .sendResponse sm) := by
  obtain ⟨resp, hresp⟩ := Option.isSome_iff_exists.mp hresp
  have hentry : eapEntry c a .sendResponse sm = { sm with
      eapReq := false
      idleWhile := sm.eap.clientTimeout
      eapResp := true
      eap := { sm.eap with
        state := .sendResponse
        lastMd5 := if sm.eap.workaround then sm.eap.reqMd5 else sm.eap.lastMd5
        lastId := sm.eap.reqId
        lastRespData := some resp } } := by
    simp [eapEntry, eapSendResponse, hresp, halloc]
  rw [hentry]
  exact ⟨h.clear, by simp, by simp, by simp, h.selected, by simp, by simp, by simp, by simp, by simp⟩

theorem Working.start (h : Working sm) (hmethods : c.methods ≠ []) (ha : a.responds = true)
    (hnone : sm.eap.selectedMethod = eapTypeNone) : Working (eapEntry c a .getMethod sm) := by
  simp only [Answer.responds, Bool.and_eq_true, Bool.or_eq_true, Bool.not_eq_true'] at ha
  obtain ⟨⟨halloc, -⟩, hinit⟩ := ha
  simp only [eapEntry]
  unfold eapGetMethod
  dsimp only
  split
  · exact ⟨h.clear, by simp, by simp, by simp, fun hs => absurd hnone hs, h.last, by simp, by simp,
      fun _ => ⟨fun _ => buildNak_isSome hmethods halloc _ _, Or.inr (buildNak_isSome hmethods halloc _ _)⟩, by simp⟩
  split
  · exact ⟨h.clear, by simp, by simp, by simp, fun _ => rfl, h.last, by simp, by simp,
      fun _ => ⟨fun hs => absurd rfl hs, Or.inl rfl⟩, by simp⟩
  rename_i hok
  have hpending : a.pendingReq = false := by simpa [hok] using hinit
  rw [if_neg (by simp [hpending])]
  exact ⟨h.clear, by simp, by simp, by simp, fun hs => absurd rfl hs, h.last, by simp, by simp,
    fun _ => ⟨fun _ => buildNak_isSome hmethods halloc _ _, Or.inr (buildNak_isSome hmethods halloc _ _)⟩, by simp⟩

theorem Working.process (h : Working sm) (ha : a.responds = true)
    (hresp : sm.eap.m.isSome = true ∨ sm.eap.eapRespData.isSome = true) : Working (eapEntry c a .method sm) := by
  simp only [Answer.responds, Bool.and_eq_true, Bool.or_eq_true] at ha
  obtain ⟨⟨-, hret⟩, -⟩ := ha
  simp only [eapEntry]
  unfold eapMethod
  split
  · rename_i hm
    have hresp' : sm.eap.eapRespData.isSome = true := by simpa [hm] using hresp
    exact ⟨h.clear, by simp, by simp, by simp, h.selected, h.last, by simp, fun _ _ => hresp', by simp, by simp⟩
  split
  · rename_i hig
    exact ⟨h.clear, by simp, by simp, by simp, h.selected, h.last, by simp, fun _ hi => by simp [hig] at hi,
      by simp, by simp⟩
  · rename_i hig
    have hsome : a.ret.resp.isSome = true := by simpa [hig] using hret
    exact ⟨h.clear, by simp, by simp, by simp, h.selected, h.last, by simp, fun _ _ => hsome, by simp, by simp⟩

theorem Working.sendResponse (h : Working sm) (hmove : eapStepLocal sm = .enter .sendResponse) :
    sm.eap.eapRespData.isSome = true := by
  rcases eapStepLocal_cases hmove with ⟨-, ht⟩ | ⟨-, ht⟩ | ⟨-, -, ht⟩ | ⟨-, -, ht⟩ | ⟨-, ht⟩ | ⟨-, -, ht⟩ |
    ⟨hs, hsel, -⟩ | ⟨-, -, ht⟩ | ⟨hs, hig, -⟩ | ⟨-, ht⟩ | ⟨hs, -⟩
  case inr.inr.inr.inr.inl =>
    have hmem := eapStepReceived_mem sm.eap
    rw [← ht] at hmem
    simp at hmem
  case inr.inr.inr.inr.inr.inr.inl => exact (h.getMethod hs).1 hsel
  case inr.inr.inr.inr.inr.inr.inr.inr.inl => exact h.method hs hig
  case inr.inr.inr.inr.inr.inr.inr.inr.inr.inr => exact h.resp hs
  all_goals simp at ht

theorem Working.enter (h : Working sm) (hmethods : c.methods ≠ []) (ha : a.responds = true)
    (hidentity : asksIdentity sm.eapReqData = true → identityBuilt a sm.config = true) (hmove : eapStepLocal sm = .enter t) :
    Working (eapEntry c a t sm) := by
  have halloc : a.alloc = true := by
    simp only [Answer.responds, Bool.and_eq_true] at ha
    exact ha.1.1
  rcases eapStepLocal_cases hmove with ⟨hs, rfl⟩ | ⟨hs, rfl⟩ | ⟨hs, hq, rfl⟩ | ⟨hs, hq, ht⟩ | ⟨hs, ht⟩ |
    ⟨hs, hsel, rfl⟩ | ⟨hs, hsel, rfl⟩ | ⟨hs, hig, rfl⟩ | ⟨hs, hig, rfl⟩ | ⟨hs, rfl⟩ | ⟨hs, rfl⟩
  · exact h.plain (by simp)
  · exact absurd hs h.on
  · exact h.plain (by simp)
  · exact h.plain (by simp at ht ⊢; tauto)
  · have hmem := eapStepReceived_mem sm.eap
    rw [← ht] at hmem
    simp only [List.mem_cons, List.not_mem_nil, or_false] at hmem
    rcases hmem with rfl | rfl | rfl | rfl | rfl | rfl | rfl | rfl
    · exact h.plain (by simp)
    · exact h.plain (by simp)
    · -- a retransmission has a response, as an identifier was seen
      have hid := eapStepReceived_retransmit ht.symm
      have hlast : sm.eap.lastRespData.isSome = true := by
        cases hr : sm.eap.lastRespData with
        | some _ => rfl
        | none =>
          have := h.last hr
          omega
      exact ⟨h.clear, by simp, by simp, by simp, h.selected, h.last,
        fun _ => by simpa [eapEntry, eapRetransmit, halloc] using hlast, by simp, by simp, by simp⟩
    · exact ⟨h.clear, by simp, by simp, by simp, h.selected, h.last,
        fun _ => by simp [eapEntry, eapNotification, halloc], by simp, by simp, by simp⟩
    · exact ⟨h.clear, by simp, by simp, by simp, h.selected, h.last,
        fun _ => buildIdentity_isSome halloc (hidentity (h.identity hs ht.symm)), by simp, by simp, by simp⟩
    · exact h.start hmethods ha (eapStepReceived_getMethod ht.symm).2
    · exact h.process ha (Or.inl (h.selected (eapStepReceived_method ht.symm)))
    · exact h.plain (by simp)
  · exact h.process ha (h.getMethod hs).2
  · exact h.send halloc (h.sendResponse hmove)
  · exact h.plain (by simp)
  · exact h.send halloc (h.sendResponse hmove)
  · exact h.plain (by simp)
  · exact h.send halloc (h.sendResponse hmove)

end Working

section EapRun

variable {c : Ctx} {a : Answer} {sm : Sm} {A : Answer → Prop} {q : Bool}

structure On (A : Answer → Prop) (sm : Sm) : Prop where
  port : sm.portEnabled = true
  force : sm.eap.forceDisabled = false
  config : asksIdentity sm.eapReqData = true → ∀ a, A a → identityBuilt a sm.config = true

structure Starting (sm : Sm) : Prop where
  start : sm.eapRestart = true ∨ (sm.eap.state = .disabled ∧ sm.eap.numRounds ≤ eapMaxAuthRounds)

theorem eapEntry_config {t : EapState} (h : ∀ a, A a → identityBuilt a sm.config = true) :
    ∀ a', A a' → identityBuilt a' (eapEntry c a t sm).config = true := by
  intro a' ha'
  cases t
  case identity => exact buildIdentity_config (h a' ha')
  case getMethod =>
    simp only [eapEntry]
    unfold eapGetMethod
    dsimp only
    repeat' split
    all_goals exact h a' ha'
  case method =>
    simp only [eapEntry]
    unfold eapMethod
    repeat' split
    all_goals exact h a' ha'
  case sendResponse =>
    simp only [eapEntry]
    unfold eapSendResponse
    dsimp only
    split <;> exact h a' ha'
  all_goals exact h a' ha'

theorem On.entry (h : On A sm) (c : Ctx) (a : Answer) (t : EapState) : On A (eapEntry c a t sm) where
  port := (congrArg Sm.portEnabled (eapEntry_eapolPart c a t sm) :).trans h.port
  force := (eapEntry_eap c a t sm).1.trans h.force
  config hask := eapEntry_config (h.config ((congrArg (asksIdentity ·.eapReqData) (eapEntry_eapolPart c a t sm) :).symm.trans hask))

theorem On.countRound (h : On A sm) : On A (countRound sm) := ⟨h.port, h.force, h.config⟩

theorem On.step (h : On A sm) : On A (eapStep c a sm).1 := by
  have hcases := eapStep_cases c a sm
  generalize eapStep c a sm = r at hcases ⊢
  cases hcases with
  | restart => exact h.entry c a .initializing
  | disabled => exact h.entry c a .disabled
  | tooMany => exact h.countRound.entry c a .failure
  | exceeded => exact h
  | stay => exact h
  | enter t => exact h.entry c a t

theorem Working.countRound (h : Working sm) : Working (countRound sm) :=
  ⟨h.clear, h.on, h.success, h.failure, h.selected, h.last, h.resp, h.method, h.getMethod, h.identity⟩

-- A request that is being processed is there or has a result.
def Served (q : Bool) (sm : Sm) : Prop := q = true → sm.eapReq = true ∨ Answered sm

def Serving (q : Bool) (sm : Sm) : Prop := (Starting sm ∧ (q = true → sm.eapReq = true)) ∨ (Working sm ∧ Served q sm)

theorem Answered.entry {t : EapState} (h : Answered sm) (ht : t ≠ .initializing) : Answered (eapEntry c a t sm) := by
  obtain ⟨-, -, hs, hf, hn, hr⟩ := eapEntry_vars c a t sm
  simp only [ht, if_false] at hs hf hn hr
  unfold Answered at h ⊢
  rw [hs, hf, hn, hr]
  rcases h with h | h | h | h <;> simp [h]

theorem Served.enter {t : EapState} (h : Served q sm) (hwork : Working sm) (hmove : eapStepLocal sm = .enter t) :
    Served q (eapEntry c a t sm) := by
  intro hq
  have hcases := eapStepLocal_cases hmove
  have ht : t ≠ .initializing := by
    rintro rfl
    have hmem := eapStepReceived_mem sm.eap
    rcases hcases with ⟨-, ht⟩ | ⟨hs, -⟩ | ⟨-, -, ht⟩ | ⟨-, -, ht⟩ | ⟨-, ht⟩ | ⟨-, -, ht⟩ | ⟨-, -, ht⟩ |
      ⟨-, -, ht⟩ | ⟨-, -, ht⟩ | ⟨-, ht⟩ | ⟨-, ht⟩
    case inr.inl => exact hwork.on hs
    case inr.inr.inr.inr.inl =>
      rw [← ht] at hmem
      simp at hmem
    all_goals simp at ht
  rcases h hq with h | h
  · obtain ⟨hreq, -, hs, hf, hn, hr⟩ := eapEntry_vars c a t sm
    by_cases hclear : t ∈ [EapState.sendResponse, .discard, .success, .failure]
    · right
      simp only [List.mem_cons, List.not_mem_nil, or_false] at hclear
      rcases hclear with rfl | rfl | rfl | rfl
      · left
        simpa [hwork.sendResponse hmove] using hr
      · right; left; simpa using hn
      · right; left; simpa using hn
      · right; left; simpa using hn
    · left
      rw [hreq, if_neg hclear]
      exact h
  · exact Or.inr (h.entry ht)

theorem Serving.step (hmethods : c.methods ≠ []) (hon : On A sm) (hA : A a) (ha : a.responds = true)
    (h : Serving q sm) : Working (eapStep c a sm).1 ∧ Served q (eapStep c a sm).1 := by
  have hcases := eapStep_cases c a sm
  generalize eapStep c a sm = r at hcases ⊢
  cases hcases with
  | restart hrestart =>
    refine ⟨eapInitialize_working (c := c), ?_⟩
    rcases h with ⟨-, hq⟩ | ⟨h, -⟩
    · exact fun hq' => Or.inl (hq hq')
    · simp [h.clear] at hrestart
  | disabled _ hdisabled => simp [hon.port, hon.force] at hdisabled
  | tooMany hclear _ _ hrounds =>
    rcases h with ⟨h, -⟩ | ⟨h, -⟩
    · rcases h.start with hr | ⟨-, hfew⟩
      · simp [hclear] at hr
      · omega
    · exact ⟨h.countRound.plain (c := c) (a := a) (t := .failure) (by simp), fun _ => Or.inr (Or.inr (Or.inl rfl))⟩
  | exceeded hclear _ _ hrounds =>
    rcases h with ⟨h, -⟩ | h
    · rcases h.start with hr | ⟨-, hfew⟩
      · simp [hclear] at hr
      · omega
    · exact h
  | stay hclear _ _ _ hmove =>
    rcases h with ⟨h, -⟩ | h
    · rcases h.start with hr | ⟨hs, -⟩
      · simp [hclear] at hr
      · simp [eapStepLocal, hs, hon.port, hon.force] at hmove
    · exact h
  | enter t hclear _ _ _ hmove =>
    rcases h with ⟨h, hq⟩ | ⟨h, hserved⟩
    · rcases h.start with hr | ⟨hs, -⟩
      · simp [hclear] at hr
      obtain rfl : t = .initializing := by
        simp [eapStepLocal, hs, hon.port, hon.force] at hmove
        exact hmove.symm
      exact ⟨eapInitialize_working (c := c), fun hq' => Or.inl (hq hq')⟩
    · exact ⟨h.enter hmethods ha (fun hask => hon.config hask a hA) hmove, hserved.enter h hmove⟩

-- A session that goes on without a restart keeps what it has told.
structure Past (sm : Sm) : Prop where
  clear : sm.eapRestart = false
  port : sm.portEnabled = true
  force : sm.eap.forceDisabled = false
  state : sm.eap.state ∉ [EapState.disabled, .initializing]

theorem Past.step {P : Sm → Prop} (h : Past sm) (hfailure : P (eapEntry c a .failure (countRound sm))) (hsame : P sm)
    (hentry : ∀ t, t ∉ [EapState.disabled, .initializing] → eapStepLocal sm = .enter t → P (eapEntry c a t sm)) :
    Past (eapStep c a sm).1 ∧ P (eapStep c a sm).1 := by
  have hpast : ∀ s : Sm, Past s → ∀ t, t ∉ [EapState.disabled, .initializing] → Past (eapEntry c a t s) := by
    intro s hs t ht
    obtain ⟨-, hrestart, -⟩ := eapEntry_vars c a t s
    refine ⟨?_, (congrArg Sm.portEnabled (eapEntry_eapolPart c a t s) :).trans hs.port,
      (eapEntry_eap c a t s).1.trans hs.force, by simpa using ht⟩
    rw [hrestart, hs.clear]
    split <;> rfl
  have hcases := eapStep_cases c a sm
  generalize eapStep c a sm = r at hcases ⊢
  cases hcases with
  | restart hrestart => simp [h.clear] at hrestart
  | disabled _ hdisabled => simp [h.port, h.force] at hdisabled
  | tooMany => exact ⟨hpast (countRound sm) ⟨h.clear, h.port, h.force, h.state⟩ .failure (by simp), hfailure⟩
  | exceeded => exact ⟨h, hsame⟩
  | stay => exact ⟨h, hsame⟩
  | enter t _ _ _ _ hmove =>
    have ht : t ∉ [EapState.disabled, .initializing] := by
      have hmem := eapStepReceived_mem sm.eap
      have hstate := h.state
      rcases eapStepLocal_cases hmove with ⟨-, rfl⟩ | ⟨hs, -⟩ | ⟨-, -, rfl⟩ | ⟨-, -, ht⟩ | ⟨-, ht⟩ |
        ⟨-, -, rfl⟩ | ⟨-, -, rfl⟩ | ⟨-, -, rfl⟩ | ⟨-, -, rfl⟩ | ⟨-, rfl⟩ | ⟨-, rfl⟩
      case inr.inl => simp [hs] at hstate
      case inr.inr.inr.inl =>
        simp at ht ⊢
        rcases ht with rfl | rfl <;> simp
      case inr.inr.inr.inr.inl =>
        rw [← ht] at hmem
        simp at hmem ⊢
        rcases hmem with rfl | rfl | rfl | rfl | rfl | rfl | rfl | rfl <;> simp
      all_goals simp
    exact ⟨hpast sm h t ht, hentry t ht hmove⟩

end EapRun

section Quiet

variable {c : Ctx} {a : Answer} {t : EapState} {s : Sm}

def Off (s : Sm) : Prop := s.portEnabled = false ∨ s.eap.forceDisabled = true

theorem Off.entry (h : Off s) (ht : t ∈ [EapState.initializing, .disabled]) :
    Off (eapEntry c a t s) ∧ (eapEntry c a t s).eapReq = s.eapReq := by
  obtain ⟨hreq, -⟩ := eapEntry_vars c a t s
  refine ⟨h.imp (congrArg Sm.portEnabled (eapEntry_eapolPart c a t s) :).trans (eapEntry_eap c a t s).1.trans,
    hreq.trans (if_neg ?_)⟩
  simp only [List.mem_cons, List.not_mem_nil, or_false] at ht
  rcases ht with rfl | rfl <;> simp

theorem Off.step (h : Off s) : Off (eapStep c a s).1 ∧ (eapStep c a s).1.eapReq = s.eapReq := by
  have hcases := eapStep_cases c a s
  generalize eapStep c a s = r at hcases ⊢
  cases hcases with
  | restart => exact h.entry (by simp)
  | disabled => exact h.entry (by simp)
  | exceeded | stay => exact ⟨h, rfl⟩
  | tooMany _ hport hforce | enter _ _ hport hforce => simp [Off, hport, hforce] at h

-- A machine without a request that waits, is about to wait, or has ended
structure Idling (s : Sm) : Prop where
  on : On (fun _ => False) s
  req : s.eapReq = false
  working : Working s
  state : s.eap.state ∈ [EapState.initializing, .idle, .success, .failure]

theorem idling_entry (c : Ctx) (a : Answer) (t : EapState) (hon : On (fun _ => False) s) (hreq : s.eapReq = false)
    (hwork : Working (eapEntry c a t s)) (ht : t ∈ [EapState.initializing, .idle, .success, .failure]) :
    Idling (eapEntry c a t s) := by
  obtain ⟨hreq', -⟩ := eapEntry_vars c a t s
  refine ⟨hon.entry c a t, ?_, hwork, by simpa using ht⟩
  rw [hreq', hreq]
  split <;> rfl

theorem Idling.move (h : Idling s) (hmove : eapStepLocal s = .enter t) :
    t ∈ [EapState.idle, .success, .failure] := by
  have hstate := h.state
  simp only [List.mem_cons, List.not_mem_nil, or_false] at hstate
  rcases hstate with hstate | hstate | hstate | hstate
  · simp [eapStepLocal, hstate] at hmove
    simp [← hmove]
  · simp only [eapStepLocal, hstate] at hmove
    rcases eapStepIdle_cases hmove with ⟨-, hq⟩ | ⟨ht, -⟩
    · simp [h.req] at hq
    · exact List.mem_cons_of_mem _ ht
  · simp [eapStepLocal, hstate] at hmove
  · simp [eapStepLocal, hstate] at hmove

theorem Idling.entered (h : Idling s) (ht : t ∈ [EapState.idle, .success, .failure]) :
    Idling (eapEntry c a t s) := by
  simp only [List.mem_cons, List.not_mem_nil, or_false] at ht
  rcases ht with rfl | rfl | rfl
  all_goals exact idling_entry c a _ h.on h.req (h.working.plain (by simp)) (by simp)

theorem idling_step (hon : On (fun _ => False) s) (hreq : s.eapReq = false) (h : Starting s ∨ Idling s) :
    Idling (eapStep c a s).1 := by
  have hcases := eapStep_cases c a s
  generalize eapStep c a s = r at hcases ⊢
  -- a machine that is about to start enters INITIALIZE; one that goes on waits or ends
  have hidling : s.eapRestart = false → s.eap.state ≠ .disabled ∨ eapMaxAuthRounds < s.eap.numRounds →
      Idling s := by
    intro hclear hgoes
    rcases h with ⟨hr | ⟨hs, hfew⟩⟩ | h
    · simp [hclear] at hr
    · rcases hgoes with hne | hmany
      · exact absurd hs hne
      · omega
    · exact h
  cases hcases with
  | restart => exact idling_entry c a .initializing hon hreq eapInitialize_working (by simp)
  | disabled _ hdisabled => simp [hon.port, hon.force] at hdisabled
  | tooMany hclear _ _ hrounds =>
    have hwork := (hidling hclear (Or.inr (by omega))).working
    exact idling_entry c a .failure hon.countRound hreq (hwork.countRound.plain (by simp)) (by simp)
  | exceeded hclear _ _ hrounds =>
    have hidle := hidling hclear (Or.inr (by omega))
    exact ⟨hon, hreq, hidle.working, hidle.state⟩
  | stay hclear _ _ _ hmove =>
    refine hidling hclear (Or.inl fun hs => ?_)
    simp [eapStepLocal, hs, hon.port, hon.force] at hmove
  | enter t hclear _ _ _ hmove =>
    by_cases hs : s.eap.state = .disabled
    · obtain rfl : t = .initializing := by
        simp [eapStepLocal, hs, hon.port, hon.force] at hmove
        exact hmove.symm
      exact idling_entry c a .initializing hon hreq eapInitialize_working (by simp)
    · have hidle := hidling hclear (Or.inl hs)
      exact hidle.entered (hidle.move hmove)

end Quiet

section Packet

variable (c : Ctx) (answers : ℕ → Answer) {sm : Sm}

theorem eapLoop_keeps {I J : Sm → Prop} (hinit : I sm) (hstep : ∀ k s, I s → J (eapStep c (answers k) s).1)
    (hkeep : ∀ s, J s → I s) : J (eapLoop c answers eapLoopBound sm false).1 := by
  obtain ⟨k, s, hs, -, heq, -⟩ :=
    eapLoop_rule c answers false eapRank_lt_eapLoopBound hinit (fun k s hs _ => hkeep _ (hstep k s hs))
  rw [heq]
  exact hstep k s hs

theorem Settled.starts (h : Settled sm)
    (hstart : sm.eapRestart = true ∨ sm.eap.state = .disabled ∨ (sm.eap.state = .idle ∧ Ready sm)) :
    Starting sm ∨ Working sm ∧ sm.eap.state ∈ [EapState.initializing, .idle, .success, .failure] := by
  by_cases hrestart : sm.eapRestart = true
  · exact Or.inl ⟨Or.inl hrestart⟩
  rcases hstart with hr | hstate | ⟨hstate, hready⟩
  · exact absurd hr hrestart
  · refine Or.inl ⟨Or.inr ⟨hstate, ?_⟩⟩
    by_contra hmany
    have hfinal := h.rounds (by omega)
    simp [hstate] at hfinal
  · exact Or.inr ⟨⟨by simpa using hrestart, by simp [hstate], by simp [hstate], by simp [hstate],
      hready.selected hstate, hready.last hstate, by simp [hstate], by simp [hstate], by simp [hstate],
      by simp [hstate]⟩, by simp [hstate]⟩

-- An EAP machine that is about to start, or waits and can answer, answers the request, and can answer again.
theorem eapLoop_serving (hmethods : c.methods ≠ []) (hresponds : ∀ k, (answers k).responds = true)
    (hon : On (fun a => ∃ k, answers k = a) sm) (hsettled : Settled sm)
    (hstart : sm.eapRestart = true ∨ sm.eap.state = .disabled ∨ (sm.eap.state = .idle ∧ Ready sm)) :
    Ready (eapLoop c answers eapLoopBound sm false).1 ∧
      (sm.eapReq = true → Answered (eapLoop c answers eapLoopBound sm false).1) := by
  have hserving : Serving sm.eapReq sm := (hsettled.starts hstart).imp (⟨·, id⟩) (⟨·.1, Or.inl⟩)
  obtain ⟨hon', hwork, hserved⟩ := eapLoop_keeps c answers
    (I := fun s => On (fun a => ∃ k, answers k = a) s ∧ Serving sm.eapReq s)
    (J := fun s => On (fun a => ∃ k, answers k = a) s ∧ Working s ∧ Served sm.eapReq s)
    ⟨hon, hserving⟩ (fun k s hs => ⟨hs.1.step, hs.2.step hmethods hs.1 ⟨k, rfl⟩ (hresponds k)⟩)
    (fun s hs => ⟨hs.1, Or.inr hs.2⟩)
  obtain ⟨hrest, hcalm⟩ := eapLoop_settled c answers hsettled
  refine ⟨⟨hwork.success, hwork.failure, fun _ => hwork.selected, fun _ => hwork.last⟩, fun hq => ?_⟩
  rcases hserved hq with hreq | hanswered
  · -- a request that is still there has ended the session
    have hstate := hrest.rest
    simp only [List.mem_cons, List.not_mem_nil, or_false] at hstate
    rcases hstate with hs | hs | hs | hs
    · have := hcalm.idle hs
      simp [eapStepIdle, hreq] at this
    · exact absurd hs hwork.on
    · exact Or.inr (Or.inr (Or.inl (hwork.success hs)))
    · exact Or.inr (Or.inr (Or.inr (hwork.failure hs)))
  · exact hanswered

theorem eapLoop_results (h : Past sm) (hresult : sm.eapSuccess = true ∨ sm.eapFail = true) :
    (eapLoop c answers eapLoopBound sm false).1.eapSuccess = true ∨
      (eapLoop c answers eapLoopBound sm false).1.eapFail = true := by
  let P := fun s : Sm => s.eapSuccess = true ∨ s.eapFail = true
  have hentry : ∀ (k : ℕ) (s : Sm) (t : EapState), t ∉ [EapState.disabled, .initializing] → P s →
      P (eapEntry c (answers k) t s) := by
    intro k s t ht hs
    obtain ⟨-, -, hsuccess, hfail, -⟩ := eapEntry_vars c (answers k) t s
    have hne : t ≠ .initializing := by
      rintro rfl
      simp at ht
    show _ ∨ _
    rw [hsuccess, hfail, if_neg hne, if_neg hne]
    rcases hs with hs | hs <;> simp [hs]
  exact (eapLoop_keeps c answers (I := fun s => Past s ∧ P s) ⟨h, hresult⟩
    (fun k s hs => hs.1.step (hentry k _ _ (by simp) hs.2) hs.2 (fun t ht _ => hentry k s t ht hs.2))
    (fun s hs => hs)).2

theorem eapLoop_final (h : Past sm) (hfinal : sm.eap.state ∈ [EapState.success, .failure]) :
    (Ready sm → Ready (eapLoop c answers eapLoopBound sm false).1) ∧
      (sm.eapReq = true → (eapLoop c answers eapLoopBound sm false).1.eapReq = true ∨
        Answered (eapLoop c answers eapLoopBound sm false).1) := by
  let P := fun s : Sm => s.eap.state ∈ [EapState.success, .failure] ∧ (Ready sm → Ready s) ∧
    (sm.eapReq = true → s.eapReq = true ∨ Answered s)
  have hfailure : ∀ (k : ℕ) (s : Sm), P (eapEntry c (answers k) .failure (countRound s)) := by
    intro k s
    refine ⟨by simp, fun _ => ⟨by simp, fun _ => rfl, by simp, by simp⟩, fun _ => Or.inr (Or.inr (Or.inl rfl))⟩
  exact (eapLoop_keeps c answers (I := fun s => Past s ∧ P s) ⟨h, hfinal, id, Or.inl⟩
    (fun k s hs => hs.1.step (hfailure k s) hs.2 (fun t _ hmove => by
      have hstate := hs.2.1
      simp only [List.mem_cons, List.not_mem_nil, or_false] at hstate
      rcases hstate with hstate | hstate <;> simp [eapStepLocal, hstate] at hmove))
    (fun s hs => hs)).2.2

theorem eapLoop_discard (h : Past sm) (hsettled : Settled sm) (hidle : sm.eap.state = .idle) (hreq : sm.eapReq = true)
    (hnone : sm.eapReqData = none) : Answered (eapLoop c answers eapLoopBound sm false).1 := by
  let P := fun s : Sm => s.eapReqData = none ∧ ((s.eap.state = .idle ∧ s.eapReq = true) ∨
    (s.eap.state = .received ∧ s.eap.rxReq = false ∧ s.eap.rxSuccess = false ∧ s.eap.rxFailure = false ∧
      s.eap.rxResp = false) ∨ Answered s)
  have hdata : ∀ (k : ℕ) (s : Sm) (t : EapState), s.eapReqData = none →
      (eapEntry c (answers k) t s).eapReqData = none := fun k s t hs =>
    (congrArg Sm.eapReqData (eapEntry_eapolPart c (answers k) t s) :).trans hs
  have hstep : ∀ (k : ℕ) (s : Sm), Past s ∧ P s → Past (eapStep c (answers k) s).1 ∧ P (eapStep c (answers k) s).1 := by
    rintro k s ⟨hpast, hnone, hphase⟩
    refine hpast.step ⟨hdata k _ _ hnone, Or.inr (Or.inr (Or.inr (Or.inl rfl)))⟩ ⟨hnone, hphase⟩ ?_
    intro t ht hmove
    refine ⟨hdata k s t hnone, ?_⟩
    rcases hphase with ⟨hs, hq⟩ | ⟨hs, hr1, hr2, hr3, hr4⟩ | hanswered
    · obtain rfl : t = .received := by
        simp [eapStepLocal, hs, eapStepIdle, hq] at hmove
        exact hmove.symm
      right; left
      simp [eapEntry, eapReceived, parseEapReq, hnone]
    · obtain rfl : t = .discard := by
        simp [eapStepLocal, hs, eapStepReceived, hr1, hr2, hr3, hr4] at hmove
        exact hmove.symm
      exact Or.inr (Or.inr (Or.inr (Or.inl rfl)))
    · refine Or.inr (Or.inr (hanswered.entry ?_))
      rintro rfl
      simp at ht
  obtain ⟨-, -, hphase⟩ := eapLoop_keeps c answers (I := fun s => Past s ∧ P s)
    ⟨h, hnone, Or.inl ⟨hidle, hreq⟩⟩ hstep (fun s hs => hs)
  obtain ⟨hrest, hcalm⟩ := eapLoop_settled c answers hsettled
  rcases hphase with ⟨hs, hq⟩ | ⟨hs, -⟩ | hanswered
  · have := hcalm.idle hs
    simp [eapStepIdle, hq] at this
  · have hstate := hrest.rest
    simp [hs] at hstate
  · exact hanswered

-- Where the port is down or EAP is disabled, it ends there, and the request stays.
theorem eapLoop_off (hsettled : Settled sm) (hoff : sm.portEnabled = false ∨ sm.eap.forceDisabled = true) :
    (eapLoop c answers eapLoopBound sm false).1.eap.state = .disabled ∧
      (eapLoop c answers eapLoopBound sm false).1.eapReq = sm.eapReq := by
  let P := fun s : Sm => Off s ∧ s.eapReq = sm.eapReq
  have hstep : ∀ k s, P s → P (eapStep c (answers k) s).1 := fun k s hs =>
    ⟨hs.1.step.1, hs.1.step.2.trans hs.2⟩
  obtain ⟨hoff', hreq⟩ := eapLoop_keeps c answers (I := P) (J := P) ⟨hoff, rfl⟩ hstep (fun _ hs => hs)
  exact ⟨(eapLoop_settled c answers hsettled).2.disabled.mpr hoff', hreq⟩

-- Without a request, no method is asked, and it can answer again, whatever is configured.
theorem eapLoop_quiet (hon : On (fun _ => False) sm) (hsettled : Settled sm) (hreq : sm.eapReq = false)
    (hstart : sm.eapRestart = true ∨ sm.eap.state = .disabled ∨ (sm.eap.state = .idle ∧ Ready sm)) :
    Ready (eapLoop c answers eapLoopBound sm false).1 := by
  let I := fun s : Sm => On (fun _ => False) s ∧ s.eapReq = false ∧ (Starting s ∨ Idling s)
  have hinit : I sm :=
    ⟨hon, hreq, (hsettled.starts hstart).imp_right fun hwaits => ⟨hon, hreq, hwaits.1, hwaits.2⟩⟩
  have hloop := eapLoop_keeps c answers (I := I) hinit (fun k s hs => idling_step hs.1 hs.2.1 hs.2.2)
    (fun s hs => ⟨hs.on, hs.req, Or.inr hs⟩)
  exact ⟨hloop.working.success, hloop.working.failure, fun _ => hloop.working.selected,
    fun _ => hloop.working.last⟩

end Packet

end WpaSupplicant.EapolSupp
