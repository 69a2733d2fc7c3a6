import WpaSupplicant.Wps.Registrar

namespace WpaSupplicant.Wps

open Enrollee (refuse acceptControl upnpOpCode)

section Definitions

variable (c : Crypto) (env : Env) (ctx : Context) (wps : WpsData) (opCode : OpCode) (msg : Octets)

-- A message is acted on where it is not just dropped.
def Acts : Prop := processMsg c env ctx wps opCode msg ≠ (wps, .failure, [])

def handlerOf : OpCode := if !wps.registrar && opCode = .upnp then upnpOpCode msg else opCode

def checksRegistrarNonce (registrar : Bool) : OpCode → Bool
  | .msg => registrar
  | .ack => true
  | .nack => true
  | .done => registrar
  | _ => false
def checksEnrolleeNonce (registrar : Bool) : OpCode → Bool
  | .msg => !registrar
  | .upnp => !registrar
  | .ack => true
  | .nack => true
  | .done => registrar
  | _ => false

-- The comparisons of the code succeed.
def NoncesPass (attr : ParseAttr) : Prop :=
  (checksRegistrarNonce wps.registrar (handlerOf wps opCode msg) = true →
    nonceMatches wps.nonceR attr.registrarNonce = true) ∧
  (checksEnrolleeNonce wps.registrar (handlerOf wps opCode msg) = true →
    nonceMatches wps.nonceE attr.enrolleeNonce = true)

def NoncesEqual (attr : ParseAttr) : Prop :=
  (checksRegistrarNonce wps.registrar (handlerOf wps opCode msg) = true →
    attr.registrarNonce = some wps.nonceR) ∧
  (checksEnrolleeNonce wps.registrar (handlerOf wps opCode msg) = true →
    attr.enrolleeNonce = some wps.nonceE)

def isM1 (attr : ParseAttr) : Prop := wps.registrar = true ∧ opCode = .msg ∧ attr.msgType = some m1

-- `wps_cb_reg_success` and `wps_cb_new_psk`
def Event.isSuccess : Event → Bool
  | .regSuccess _ _ => true
  | .newPsk _ _ => true
  | _ => false

def ReportsSuccess (r : WpsData × ProcessRes × List Event) : Prop :=
  r.2.1 = .done ∨ ∃ e ∈ r.2.2, e.isSuccess = true

-- A message is acted on only if it belongs to the session, and a registration succeeds only with a
-- WSC_Done that does.
def Belongs : Prop :=
  (Acts c env ctx wps opCode msg →
    ∃ attr, parseMsg msg = some attr ∧ (isM1 wps opCode attr ∨ NoncesEqual wps opCode msg attr)) ∧
  (wps.registrar = true → ReportsSuccess (processMsg c env ctx wps opCode msg) →
    opCode = .done ∧ wps.state = .recvDone ∧
      ∃ attr, parseMsg msg = some attr ∧ attr.registrarNonce = some wps.nonceR ∧
        attr.enrolleeNonce = some wps.nonceE)

-- The messages that `wps_process_wsc_msg` of the Registrar has a use for, apart from M1
def registrarAnswers (attr : ParseAttr) (opCode : OpCode) : Bool :=
  opCode = .msg && (attr.msgType = some m3 || attr.msgType = some m5 || attr.msgType = some m7)

def enrolleeAnswers (attr : ParseAttr) : OpCode → Bool
  | .msg =>
    attr.msgType = none || attr.msgType = some m2 || attr.msgType = some m2d ||
      attr.msgType = some m4 || attr.msgType = some m6 || attr.msgType = some m8
  | .upnp =>
    attr.msgType = none || attr.msgType = some m2 || attr.msgType = some m2d ||
      attr.msgType = some m4 || attr.msgType = some m6 || attr.msgType = some m8
  | .ack => attr.msgType = some wscAck && wps.state = .recvAck && ctx.ap
  | .nack => attr.msgType = some wscNack && attr.configError.isSome && wps.state ≠ .sendWscNack
  | _ => false

def answers (attr : ParseAttr) : Bool :=
  if wps.registrar then registrarAnswers attr opCode
  else enrolleeAnswers ctx wps attr (handlerOf wps opCode msg)

-- A message that a handler has a use for has the nonces of the session, or others in the first octet
-- already. What the Registrar does not check has them anyway: a message without a type, which is refused
-- before the check, and WSC_NACK and WSC_Done, which end the session whatever they have.
def NoNearMiss : Prop :=
  (∀ attr, parseMsg msg = some attr → answers ctx wps opCode msg attr = true →
    NoncesPass wps opCode msg attr → NoncesEqual wps opCode msg attr) ∧
  (wps.registrar = true → opCode = .msg → ∀ attr, parseMsg msg = some attr →
    attr.msgType = none → attr.registrarNonce = some wps.nonceR) ∧
  (wps.registrar = true → opCode = .nack ∨ opCode = .done →
    ∃ attr, parseMsg msg = some attr ∧ NoncesEqual wps opCode msg attr)

end Definitions

section Lemmas

variable {c : Crypto} {env : Env} {ctx : Context} {wps : WpsData} {opCode : OpCode} {msg : Octets}
  {attr : ParseAttr}

theorem acceptControl_eq_some {type : BitVec 8} :
    acceptControl wps msg type = some attr ↔
      parseMsg msg = some attr ∧ attr.msgType = some type ∧
        nonceMatches wps.nonceR attr.registrarNonce = true ∧
        nonceMatches wps.nonceE attr.enrolleeNonce = true := by
  unfold acceptControl
  cases parseMsg msg with
  | none => simp
  | some a =>
    dsimp only
    split
    · rename_i h
      constructor
      · rintro h'
        cases h'
        exact ⟨rfl, h⟩
      · rintro ⟨h', -⟩
        cases h'
        rfl
    · rename_i h
      constructor
      · intro h'
        cases h'
      · rintro ⟨h', hrest⟩
        cases h'
        exact absurd hrest h

theorem registrar_ack : Registrar.processMsg c env ctx wps .ack msg = (wps, .failure, []) := by
  unfold Registrar.processMsg Registrar.processWscAck
  dsimp only
  split <;> rfl

-- After a WSC_NACK the code runs into the handler of WSC_Done, whose state it is not.
theorem endDone_refuse : Registrar.endDone ctx (refuse wps) msg =
    (refuse wps, .failure, [.fail wscDone wps.configError wps.errorIndication]) := by
  simp [Registrar.endDone, Registrar.processWscDone, refuse]

theorem registrar_nack :
    Registrar.processMsg c env ctx wps .nack msg = (refuse wps, .failure,
      ((acceptControl wps msg wscNack).bind ParseAttr.configError).elim []
        (Registrar.nackEvent wps) ++
      [.fail wscDone wps.configError wps.errorIndication]) := by
  unfold Registrar.processMsg Registrar.processWscNack
  cases (acceptControl wps msg wscNack).bind ParseAttr.configError with
  | none => simp [endDone_refuse]
  | some e => simp [endDone_refuse]

theorem registrar_done_of_none
    (h : wps.state ≠ .recvDone ∨ acceptControl wps msg wscDone = none) :
    Registrar.processMsg c env ctx wps .done msg =
      (refuse wps, .failure, [.fail wscDone wps.configError wps.errorIndication]) := by
  unfold Registrar.processMsg Registrar.endDone Registrar.processWscDone
  by_cases hstate : wps.state ≠ .recvDone
  · simp [hstate]
  · simp [hstate, h.resolve_left hstate]

theorem registrar_done_of_some (hstate : wps.state = .recvDone)
    (h : acceptControl wps msg wscDone = some attr) :
    (Registrar.processMsg c env ctx wps .done msg).2.1 = .done := by
  simp [Registrar.processMsg, Registrar.endDone, Registrar.processWscDone, hstate, h]

end Lemmas

section Registrar

variable {c : Crypto} {env : Env} {ctx : Context} {wps : WpsData} {opCode : OpCode} {msg : Octets}
  {attr : ParseAttr}

variable {type : BitVec 8}

theorem registrar_msg_of_some (hparse : parseMsg msg = some attr) (htype : attr.msgType = some type)
    (hm1 : type ≠ m1) (hnonce : nonceMatches wps.nonceR attr.registrarNonce = true)
    (hknown : type = m3 ∨ type = m5 ∨ type = m7) :
    (Registrar.processMsg c env ctx wps .msg msg).2.1 = .continue := by
  simp only [Registrar.processMsg, Registrar.processWscMsg, hparse, htype]
  rw [if_neg (by simp [hnonce])]
  unfold Registrar.dispatch
  rw [if_neg hm1]
  rcases hknown with rfl | rfl | rfl
  · rfl
  · rfl
  · rfl

theorem registrar_msg_dropped (hparse : parseMsg msg = some attr) (htype : attr.msgType = some type)
    (hm1 : type ≠ m1)
    (h : nonceMatches wps.nonceR attr.registrarNonce = false ∨ ¬(type = m3 ∨ type = m5 ∨ type = m7)) :
    Registrar.processMsg c env ctx wps .msg msg = (wps, .failure, []) := by
  simp only [Registrar.processMsg, Registrar.processWscMsg, hparse, htype]
  by_cases hnonce : nonceMatches wps.nonceR attr.registrarNonce = true
  · rw [if_neg (by simp [hnonce])]
    have hunknown := h.resolve_left (by simp [hnonce])
    simp only [not_or] at hunknown
    simp [Registrar.dispatch, hm1, hunknown]
  · rw [if_pos (by simp [hm1, hnonce])]

-- What the Registrar acts on: M1, a message without a type, one that passes the check, and whatever has
-- the op-code of WSC_NACK or WSC_Done
theorem registrar_acts (hreg : wps.registrar = true) (h : Acts c env ctx wps opCode msg) :
    (opCode = .nack ∨ opCode = .done) ∨
      ∃ attr, parseMsg msg = some attr ∧
        (isM1 wps opCode attr ∨ (opCode = .msg ∧ attr.msgType = none) ∨
          (registrarAnswers attr opCode = true ∧ NoncesPass wps opCode msg attr)) := by
  unfold Acts processMsg at h
  simp only [hreg, if_true] at h
  cases opCode with
  | upnp => exact absurd rfl h
  | start => exact absurd rfl h
  | fragAck => exact absurd rfl h
  | ack => exact absurd registrar_ack h
  | nack => exact .inl (.inl rfl)
  | done => exact .inl (.inr rfl)
  | msg =>
    right
    cases hparse : parseMsg msg with
    | none => exact absurd (by simp [Registrar.processMsg, Registrar.processWscMsg, hparse]) h
    | some attr =>
      refine ⟨attr, rfl, ?_⟩
      cases htype : attr.msgType with
      | none => exact .inr (.inl ⟨rfl, rfl⟩)
      | some type =>
        by_cases hm1 : type = m1
        · exact .inl ⟨hreg, rfl, by rw [htype, hm1]⟩
        by_cases hnonce : nonceMatches wps.nonceR attr.registrarNonce = true
        · by_cases hknown : type = m3 ∨ type = m5 ∨ type = m7
          · refine .inr (.inr ⟨?_, fun _ => hnonce, ?_⟩)
            · simpa [registrarAnswers, htype, or_assoc] using hknown
            · simp [handlerOf, hreg, checksEnrolleeNonce]
          · exact absurd (registrar_msg_dropped hparse htype hm1 (.inr hknown)) h
        · exact absurd (registrar_msg_dropped hparse htype hm1 (.inl (by simpa using hnonce))) h

theorem acts_of_registrar_end (hreg : wps.registrar = true) (hop : opCode = .nack ∨ opCode = .done) :
    Acts c env ctx wps opCode msg := by
  unfold Acts processMsg
  simp only [hreg, if_true]
  intro heq
  rcases hop with rfl | rfl
  · rw [registrar_nack] at heq
    simp at heq
  by_cases haccept : wps.state ≠ .recvDone ∨ acceptControl wps msg wscDone = none
  · rw [registrar_done_of_none haccept] at heq
    simp at heq
  simp only [not_or, not_not] at haccept
  obtain ⟨attr, hattr⟩ := Option.ne_none_iff_exists'.mp haccept.2
  have hdone : (Registrar.processMsg c env ctx wps .done msg).2.1 = .done :=
    registrar_done_of_some haccept.1 hattr
  rw [heq] at hdone
  cases hdone

theorem acts_of_registrar (hreg : wps.registrar = true) (hparse : parseMsg msg = some attr)
    (h : (opCode = .msg ∧ attr.msgType = none) ∨
      (registrarAnswers attr opCode = true ∧ NoncesPass wps opCode msg attr)) :
    Acts c env ctx wps opCode msg := by
  unfold Acts processMsg
  simp only [hreg, if_true]
  intro heq
  rcases h with ⟨rfl, htype⟩ | ⟨hans, hpass⟩
  · simp [Registrar.processMsg, Registrar.processWscMsg, hparse, htype] at heq
  simp only [registrarAnswers, Bool.and_eq_true, Bool.or_eq_true, decide_eq_true_eq] at hans
  obtain ⟨rfl, hans⟩ := hans
  obtain ⟨type, htype, hknown⟩ : ∃ type, attr.msgType = some type ∧
      (type = m3 ∨ type = m5 ∨ type = m7) := by
    rcases hans with (h | h) | h
    · exact ⟨_, h, .inl rfl⟩
    · exact ⟨_, h, .inr (.inl rfl)⟩
    · exact ⟨_, h, .inr (.inr rfl)⟩
  have hm1 : type ≠ m1 := by rcases hknown with rfl | rfl | rfl <;> decide
  have hnonce : nonceMatches wps.nonceR attr.registrarNonce = true :=
    hpass.1 (by simp [handlerOf, hreg, checksRegistrarNonce])
  have hcont : (Registrar.processMsg c env ctx wps .msg msg).2.1 = .continue :=
    registrar_msg_of_some hparse htype hm1 hnonce hknown
  rw [heq] at hcont
  cases hcont

def Quiet (l : List Event) : Prop := ∀ e ∈ l, e.isSuccess = false

theorem Quiet.append {l l' : List Event} (h : Quiet l) (h' : Quiet l') : Quiet (l ++ l') := by
  intro e he
  rcases List.mem_append.mp he with he | he
  · exact h e he
  · exact h' e he

theorem quiet_failEvent : Quiet (Enrollee.failEvent wps type) := by
  unfold Enrollee.failEvent
  split <;> simp [Quiet, Event.isSuccess]

theorem quiet_processM1 : Quiet (Registrar.processM1 env ctx wps attr).2.2 := by
  unfold Registrar.processM1
  split
  · simp [Quiet]
  split
  · simp [Quiet]
  split
  · simp [Quiet]
  · split <;> simp [Quiet, Event.isSuccess]

theorem processM1_ne_done : (Registrar.processM1 env ctx wps attr).2.1 ≠ .done := by
  unfold Registrar.processM1
  split
  · simp
  split
  · simp
  split
  · simp
  · split <;> simp

theorem quiet_processM5 : Quiet (Registrar.processM5 c env ctx wps msg attr).2 := by
  unfold Registrar.processM5
  split
  · simp [Quiet]
  split
  · simp [Quiet]
  unfold Registrar.processESnonce1
  dsimp only
  split
  · simp [Quiet]
  · split <;> simp [Quiet, Event.isSuccess]

theorem quiet_processApSettingsR : Quiet (Registrar.processApSettingsR env ctx wps attr).2.1 := by
  unfold Registrar.processApSettingsR
  split
  · simp [Quiet]
  split
  · simp [Quiet]
  split
  · simp [Quiet]
  split
  · simp [Quiet, Event.isSuccess]
  · split <;> simp [Quiet, Event.isSuccess]

theorem quiet_processESnonce2 {n : Option (BitVec 128)} :
    Quiet (Registrar.processESnonce2 c wps n).2.1 := by
  unfold Registrar.processESnonce2
  split
  · simp [Quiet]
  · split <;> simp [Quiet, Event.isSuccess]

theorem quiet_processM7 : Quiet (Registrar.processM7 c env ctx wps msg attr).2 := by
  unfold Registrar.processM7
  split
  · simp [Quiet]
  split
  · simp [Quiet]
  rename_i eattr _
  have hsnonce : Quiet (Registrar.processESnonce2 c wps eattr.eSnonce2).2.1 :=
    quiet_processESnonce2
  unfold Registrar.processM7Settings
  dsimp only
  split
  · rename_i heq
    rw [heq] at hsnonce
    exact hsnonce
  · rename_i heq
    rw [heq] at hsnonce
    exact hsnonce.append quiet_processApSettingsR

theorem quiet_dispatch :
    (Registrar.dispatch c env ctx wps msg attr type).2.1 ≠ .done ∧
      Quiet (Registrar.dispatch c env ctx wps msg attr type).2.2 := by
  unfold Registrar.dispatch
  split
  · exact ⟨processM1_ne_done, quiet_processM1⟩
  split
  · exact ⟨by simp, quiet_failEvent⟩
  split
  · exact ⟨by simp, (quiet_processM5).append quiet_failEvent⟩
  split
  · exact ⟨by simp, (quiet_processM7).append quiet_failEvent⟩
  · exact ⟨by simp, by simp [Quiet]⟩

theorem registrar_msg_quiet : ¬ReportsSuccess (Registrar.processMsg c env ctx wps .msg msg) := by
  have hdrop : ∀ u r, r ≠ .done → ¬ReportsSuccess (u, r, []) := by simp [ReportsSuccess]
  unfold Registrar.processMsg Registrar.processWscMsg
  dsimp only
  split
  · exact hdrop _ _ (by simp)
  rename_i attr _
  split
  · exact hdrop _ _ (by simp)
  rename_i type _
  have hquiet : (Registrar.dispatch c env ctx wps msg attr type).2.1 ≠ .done ∧
      Quiet (Registrar.dispatch c env ctx wps msg attr type).2.2 := quiet_dispatch
  split
  · exact hdrop _ _ (by simp)
  split
  · rename_i heq
    rw [heq] at hquiet
    rintro (h | ⟨e, he, hsuccess⟩)
    · exact hquiet.1 h
    · simp [hquiet.2 e he] at hsuccess
  · rintro (h | ⟨e, he, hsuccess⟩)
    · exact hquiet.1 h
    · simp [hquiet.2 e he] at hsuccess

theorem quiet_nackEvent {e : BitVec 16} : Quiet (Registrar.nackEvent wps e) := by
  unfold Registrar.nackEvent
  split <;> simp [Quiet, Event.isSuccess]

theorem registrar_success (h : ReportsSuccess (Registrar.processMsg c env ctx wps opCode msg)) :
    opCode = .done ∧ wps.state = .recvDone ∧ ∃ attr, acceptControl wps msg wscDone = some attr := by
  have hdrop : ∀ u, ¬ReportsSuccess (u, .failure, []) := by simp [ReportsSuccess]
  have hfail : ∀ u m e n, ¬ReportsSuccess (u, .failure, [.fail m e n]) := by
    simp [ReportsSuccess, Event.isSuccess]
  cases opCode with
  | upnp | start | fragAck => exact absurd h (hdrop wps)
  | msg => exact absurd h registrar_msg_quiet
  | ack =>
    rw [registrar_ack] at h
    exact absurd h (hdrop wps)
  | nack =>
    rw [registrar_nack] at h
    obtain h | ⟨e, he, hsuccess⟩ := h
    · cases h
    have hquiet : Quiet (((acceptControl wps msg wscNack).bind ParseAttr.configError).elim []
        (Registrar.nackEvent wps)) := by
      cases (acceptControl wps msg wscNack).bind ParseAttr.configError with
      | none => simp [Quiet]
      | some e => exact quiet_nackEvent
    have hlast : Quiet [.fail wscDone wps.configError wps.errorIndication] := by
      simp [Quiet, Event.isSuccess]
    simp [(hquiet.append hlast) e he] at hsuccess
  | done =>
    by_cases hstate : wps.state = .recvDone
    · cases haccept : acceptControl wps msg wscDone with
      | none =>
        rw [registrar_done_of_none (.inr haccept)] at h
        exact absurd h (hfail _ _ _ _)
      | some attr => exact ⟨rfl, hstate, attr, rfl⟩
    · rw [registrar_done_of_none (.inl hstate)] at h
      exact absurd h (hfail _ _ _ _)

end Registrar

section Enrollee

variable {c : Crypto} {env : Env} {ctx : Context} {wps : WpsData} {opCode : OpCode} {msg : Octets}
  {attr : ParseAttr}

theorem enrollee_dispatch {type : BitVec 8} :
    (Enrollee.dispatch c env ctx wps msg attr type).isSome = true ↔
      type = m2 ∨ type = m2d ∨ type = m4 ∨ type = m6 ∨ type = m8 := by
  unfold Enrollee.dispatch
  split
  · simp [*]
  split
  · simp [*]
  split
  · simp [*]
  split
  · simp [*]
  · split <;> simp [*]

theorem enrollee_msg_cases (hne : Enrollee.processWscMsg c env ctx wps msg ≠ (wps, .failure, [])) :
    ∃ attr, parseMsg msg = some attr ∧ nonceMatches wps.nonceE attr.enrolleeNonce = true ∧
      enrolleeAnswers ctx wps attr .msg = true := by
  unfold Enrollee.processWscMsg at hne
  split at hne
  · exact absurd rfl hne
  rename_i attr hparse
  split at hne
  · exact absurd rfl hne
  rename_i hnonce
  refine ⟨attr, hparse, by simpa using hnonce, ?_⟩
  split at hne
  · rename_i htype
    simp [enrolleeAnswers, htype]
  rename_i type htype
  split at hne
  · exact absurd rfl hne
  rename_i hsome
  have hknown := enrollee_dispatch.1 (Option.isSome_iff_exists.mpr ⟨_, hsome⟩)
  simpa [enrolleeAnswers, htype, or_assoc] using hknown

theorem enrollee_msg_answered (hparse : parseMsg msg = some attr)
    (hnonce : nonceMatches wps.nonceE attr.enrolleeNonce = true)
    (hans : enrolleeAnswers ctx wps attr .msg = true) :
    (Enrollee.processWscMsg c env ctx wps msg).2.1 = .continue := by
  simp only [Enrollee.processWscMsg, hparse, hnonce, Bool.not_true, Bool.false_eq_true, if_false]
  cases htype : attr.msgType with
  | none => rfl
  | some type =>
    have hknown : type = m2 ∨ type = m2d ∨ type = m4 ∨ type = m6 ∨ type = m8 := by
      simpa [enrolleeAnswers, htype, or_assoc] using hans
    have hsome : (Enrollee.dispatch c env ctx wps msg attr type).isSome = true :=
      enrollee_dispatch.2 hknown
    obtain ⟨r, hr⟩ := Option.isSome_iff_exists.mp hsome
    simp only [hr]

theorem enrollee_ack_cases (hne : Enrollee.processWscAck ctx wps msg ≠ (wps, .failure, [])) :
    ∃ attr, acceptControl wps msg wscAck = some attr ∧ wps.state = .recvAck ∧ ctx.ap = true := by
  unfold Enrollee.processWscAck at hne
  split at hne
  · exact absurd rfl hne
  rename_i attr haccept
  split at hne
  · rename_i h
    exact ⟨attr, haccept, h⟩
  · exact absurd rfl hne

theorem enrollee_nack_cases (hne : Enrollee.processWscNack wps msg ≠ (wps, .failure, [])) :
    ∃ attr, acceptControl wps msg wscNack = some attr ∧ attr.configError.isSome = true ∧
      wps.state ≠ .sendWscNack := by
  unfold Enrollee.processWscNack at hne
  cases haccept : acceptControl wps msg wscNack with
  | none => simp [haccept] at hne
  | some attr =>
    cases herr : attr.configError with
    | none => simp [haccept, herr] at hne
    | some e =>
      refine ⟨attr, rfl, by simp [herr], fun hstate => hne ?_⟩
      have hsame : refuse wps = wps := by
        unfold refuse
        rw [← hstate]
      simp [haccept, herr, Enrollee.nackEvent, hstate, hsame]

theorem enrollee_processMsg_eq (hreg : wps.registrar = false) :
    processMsg c env ctx wps opCode msg =
      Enrollee.processMsg c env ctx wps (handlerOf wps opCode msg) msg := by
  have hidem : (if upnpOpCode msg = .upnp then upnpOpCode msg else upnpOpCode msg) =
      upnpOpCode msg := by split <;> rfl
  simp only [processMsg, hreg, Bool.false_eq_true, if_false, handlerOf, Bool.not_false, Bool.true_and,
    decide_eq_true_eq]
  by_cases hop : opCode = .upnp
  · simp only [hop, if_true, Enrollee.processMsg, hidem]
  · simp only [hop, if_false]

-- What comes to a handler from an external Registrar is no WSC_ACK and no WSC_NACK.
theorem handlerOf_upnp (hreg : wps.registrar = false) (h : handlerOf wps opCode msg = .upnp) :
    upnpOpCode msg = .upnp := by
  simp only [handlerOf, hreg, Bool.not_false, Bool.true_and, decide_eq_true_eq] at h
  by_cases hop : opCode = .upnp
  · simpa [hop] using h
  · simp [hop] at h

theorem enrollee_processMsg_msg (h : opCode = .msg ∨ (opCode = .upnp ∧ upnpOpCode msg = .upnp)) :
    Enrollee.processMsg c env ctx wps opCode msg = Enrollee.processWscMsg c env ctx wps msg := by
  rcases h with rfl | ⟨rfl, hupnp⟩
  · simp [Enrollee.processMsg]
  · simp [Enrollee.processMsg, hupnp]

theorem enrollee_acts (hreg : wps.registrar = false) (h : Acts c env ctx wps opCode msg) :
    ∃ attr, parseMsg msg = some attr ∧
      enrolleeAnswers ctx wps attr (handlerOf wps opCode msg) = true ∧
      NoncesPass wps opCode msg attr := by
  unfold Acts at h
  rw [enrollee_processMsg_eq hreg] at h
  unfold NoncesPass
  cases hop : handlerOf wps opCode msg with
  | start | done | fragAck =>
    rw [hop] at h
    exact absurd (by simp [Enrollee.processMsg]) h
  | msg =>
    rw [hop, enrollee_processMsg_msg (.inl rfl)] at h
    obtain ⟨attr, hparse, hnonce, hans⟩ := enrollee_msg_cases h
    exact ⟨attr, hparse, hans, by simp [checksRegistrarNonce, hreg], fun _ => hnonce⟩
  | upnp =>
    rw [hop, enrollee_processMsg_msg (.inr ⟨rfl, handlerOf_upnp hreg hop⟩)] at h
    obtain ⟨attr, hparse, hnonce, hans⟩ := enrollee_msg_cases h
    exact ⟨attr, hparse, hans, by simp [checksRegistrarNonce], fun _ => hnonce⟩
  | ack =>
    rw [hop] at h
    simp only [Enrollee.processMsg, reduceCtorEq, if_false] at h
    obtain ⟨attr, haccept, hstate, hap⟩ := enrollee_ack_cases h
    obtain ⟨hparse, htype, hr, he⟩ := acceptControl_eq_some.1 haccept
    exact ⟨attr, hparse, by simp [enrolleeAnswers, htype, hstate, hap], fun _ => hr, fun _ => he⟩
  | nack =>
    rw [hop] at h
    simp only [Enrollee.processMsg, reduceCtorEq, if_false] at h
    obtain ⟨attr, haccept, herr, hstate⟩ := enrollee_nack_cases h
    obtain ⟨hparse, htype, hr, he⟩ := acceptControl_eq_some.1 haccept
    exact ⟨attr, hparse, by simp [enrolleeAnswers, htype, herr, hstate], fun _ => hr, fun _ => he⟩

theorem acts_of_enrollee (hreg : wps.registrar = false) (hparse : parseMsg msg = some attr)
    (hans : enrolleeAnswers ctx wps attr (handlerOf wps opCode msg) = true)
    (hpass : NoncesPass wps opCode msg attr) : Acts c env ctx wps opCode msg := by
  unfold Acts
  rw [enrollee_processMsg_eq hreg]
  unfold NoncesPass at hpass
  intro heq
  cases hop : handlerOf wps opCode msg with
  | start | done | fragAck => simp [hop, enrolleeAnswers] at hans
  | msg =>
    rw [hop] at heq hans hpass
    rw [enrollee_processMsg_msg (.inl rfl)] at heq
    have hcont : (Enrollee.processWscMsg c env ctx wps msg).2.1 = .continue :=
      enrollee_msg_answered hparse (hpass.2 (by simp [checksEnrolleeNonce, hreg])) hans
    rw [heq] at hcont
    cases hcont
  | upnp =>
    rw [enrollee_processMsg_msg (.inr ⟨hop, handlerOf_upnp hreg hop⟩)] at heq
    rw [hop] at hans hpass
    have hcont : (Enrollee.processWscMsg c env ctx wps msg).2.1 = .continue :=
      enrollee_msg_answered hparse (hpass.2 (by simp [checksEnrolleeNonce, hreg])) hans
    rw [heq] at hcont
    cases hcont
  | ack =>
    rw [hop] at heq hans hpass
    simp only [enrolleeAnswers, Bool.and_eq_true, decide_eq_true_eq] at hans
    have haccept : acceptControl wps msg wscAck = some attr :=
      acceptControl_eq_some.2 ⟨hparse, hans.1.1, hpass.1 rfl, hpass.2 rfl⟩
    simp [Enrollee.processMsg, Enrollee.processWscAck, haccept, hans.1.2, hans.2] at heq
  | nack =>
    rw [hop] at heq hans hpass
    simp only [enrolleeAnswers, Bool.and_eq_true, decide_eq_true_eq] at hans
    obtain ⟨e, herr⟩ := Option.isSome_iff_exists.mp hans.1.2
    have haccept : acceptControl wps msg wscNack = some attr :=
      acceptControl_eq_some.2 ⟨hparse, hans.1.1, hpass.1 rfl, hpass.2 rfl⟩
    simp only [Enrollee.processMsg, reduceCtorEq, if_false, Enrollee.processWscNack, haccept,
      Option.bind_some, herr, Prod.mk.injEq] at heq
    have hstate : (refuse wps).state = wps.state := by rw [heq.1]
    exact hans.2 hstate.symm

end Enrollee

section Main

variable {c : Crypto} {env : Env} {ctx : Context} {wps : WpsData} {opCode : OpCode} {msg : Octets}

theorem noNearMiss_of_belongs (h : Belongs c env ctx wps opCode msg) :
    NoNearMiss ctx wps opCode msg := by
  refine ⟨fun attr hparse hans hpass => ?_, fun hreg hop attr hparse htype => ?_,
    fun hreg hop => ?_⟩
  · have hacts : Acts c env ctx wps opCode msg := by
      unfold answers at hans
      cases hreg : wps.registrar with
      | true =>
        rw [hreg, if_pos rfl] at hans
        exact acts_of_registrar hreg hparse (.inr ⟨hans, hpass⟩)
      | false =>
        rw [hreg, if_neg (by simp)] at hans
        exact acts_of_enrollee hreg hparse hans hpass
    obtain ⟨attr', hparse', hm1 | heq⟩ := h.1 hacts
    · obtain rfl : attr = attr' := Option.some.inj (hparse.symm.trans hparse')
      obtain ⟨hreg, -, htype⟩ := hm1
      rw [answers, hreg, if_pos rfl, registrarAnswers, htype] at hans
      simp [m1, m3, m5, m7] at hans
    · obtain rfl : attr = attr' := Option.some.inj (hparse.symm.trans hparse')
      exact heq
  · obtain ⟨attr', hparse', hm1 | heq⟩ := h.1 (acts_of_registrar hreg hparse (.inl ⟨hop, htype⟩))
    · obtain rfl : attr = attr' := Option.some.inj (hparse.symm.trans hparse')
      simp [isM1, htype] at hm1
    · obtain rfl : attr = attr' := Option.some.inj (hparse.symm.trans hparse')
      exact heq.1 (by simp [handlerOf, hreg, hop, checksRegistrarNonce])
  · obtain ⟨attr, hparse, hm1 | heq⟩ := h.1 (acts_of_registrar_end hreg hop)
    · rcases hop with rfl | rfl <;> simp [isM1] at hm1
    · exact ⟨attr, hparse, heq⟩

theorem acts_belongs (h : NoNearMiss ctx wps opCode msg) (hacts : Acts c env ctx wps opCode msg) :
    ∃ attr, parseMsg msg = some attr ∧ (isM1 wps opCode attr ∨ NoncesEqual wps opCode msg attr) := by
  cases hreg : wps.registrar with
  | false =>
    obtain ⟨attr, hparse, hans, hpass⟩ := enrollee_acts hreg hacts
    have hans' : answers ctx wps opCode msg attr = true := by simpa [answers, hreg] using hans
    exact ⟨attr, hparse, .inr (h.1 attr hparse hans' hpass)⟩
  | true =>
    obtain hop | ⟨attr, hparse, hm1 | ⟨hop, htype⟩ | ⟨hans, hpass⟩⟩ := registrar_acts hreg hacts
    · obtain ⟨attr, hparse, heq⟩ := h.2.2 hreg hop
      exact ⟨attr, hparse, .inr heq⟩
    · exact ⟨attr, hparse, .inl hm1⟩
    · refine ⟨attr, hparse, .inr ⟨fun _ => h.2.1 hreg hop attr hparse htype, ?_⟩⟩
      simp [handlerOf, hreg, hop, checksEnrolleeNonce]
    · have hans' : answers ctx wps opCode msg attr = true := by simpa [answers, hreg] using hans
      exact ⟨attr, hparse, .inr (h.1 attr hparse hans' hpass)⟩

theorem messages_belong_to_session (c : Crypto) (env : Env) (ctx : Context) (wps : WpsData)
    (opCode : OpCode) (msg : Octets) :
    Belongs c env ctx wps opCode msg ↔ NoNearMiss ctx wps opCode msg := by
  constructor
  · exact noNearMiss_of_belongs
  · intro h
    refine ⟨acts_belongs h, fun hreg hsuccess => ?_⟩
    have hsuccess' : ReportsSuccess (Registrar.processMsg c env ctx wps opCode msg) := by
      simpa [processMsg, hreg] using hsuccess
    obtain ⟨rfl, hstate, -⟩ := registrar_success hsuccess'
    obtain ⟨attr, hparse, hr, he⟩ := h.2.2 hreg (.inr rfl)
    have hhandler : handlerOf wps .done msg = .done := by simp [handlerOf, hreg]
    rw [hhandler] at hr he
    exact ⟨rfl, hstate, attr, hparse, hr hreg, he hreg⟩

def waiting : WpsData where
  registrar := true
  state := .recvDone

def foreignDone : Octets :=
  encode [buildVersion, buildMsgType wscDone, buildEnrolleeNonce 1, buildRegistrarNonce 2]

-- It ends the registration with success.
theorem foreign_done_accepted : ¬Belongs lengthCrypto {} {} waiting .done foreignDone := by
  rintro ⟨-, hsuccess⟩
  have hreports : ReportsSuccess (processMsg lengthCrypto {} {} waiting .done foreignDone) :=
    .inl (by decide)
  obtain ⟨-, -, attr, hparse, hr, -⟩ := hsuccess rfl hreports
  have hforeign : (parseMsg foreignDone).bind ParseAttr.registrarNonce ≠ some waiting.nonceR := by
    decide
  exact hforeign (by rw [hparse]; exact hr)

end Main

end WpaSupplicant.Wps
