import WpaSupplicant.P2p.Lemmas.Events

namespace WpaSupplicant.P2p

open Lib.Machine

def answersInitial (data : Octets) : Bool :=
  (parseInitialResp data).any fun resp =>
    resp.comebackDelay = 0 && (anqpPayload true resp.query).isSome

def answersComeback (env : Env) (s : P2pData) (data : Octets) : Bool :=
  (parseComebackResp data).any fun resp =>
    (fragmentPayload s.sdRxResp resp.query).isSome && env.alloc .sdRxResp && !resp.moreFrags

def CompletesQuery (s : P2pData) (step : Step) : Prop :=
  match step.op with
  | .rxGasInitialResp sa data _ => sdExpected s sa = true → answersInitial data = true
  | .rxGasComebackResp sa data _ => sdExpected s sa = true → answersComeback step.env s data = true
  | _ => True

section Lemmas

variable {s : P2pData} {env : Env} {step : Step} {sa : Addr} {data : Octets} {rxFreq : ℤ}

theorem sendAction_state {freq : ℤ} {dst : Addr} {frame : Frame} :
    (sendAction env s freq dst frame).1.state = s.state := by
  unfold sendAction
  split
  · split <;> rfl
  · rfl

theorem startSd_state {dev : Device} : (startSd env s dev).1.state = s.state := by
  unfold startSd
  split
  · rfl
  split
  · rfl
  split
  · rfl
  · exact sendAction_state

theorem sendProvDiscReq_state {dev : Device} : (sendProvDiscReq env s dev).1.state = s.state := by
  unfold sendProvDiscReq
  split
  · rfl
  split
  · rfl
  dsimp only
  split
  · rfl
  · split <;> exact sendAction_state

theorem continueFindLoop_state (l : List Device) (s : P2pData) :
    (continueFindLoop env l s).1.state = s.state := by
  induction l generalizing s with
  | nil => rfl
  | cons dev l ih =>
    unfold continueFindLoop
    split
    · exact startSd_state
    split
    · dsimp only
      split
      · exact sendProvDiscReq_state
      · exact (ih _).trans sendProvDiscReq_state
    · exact ih s

theorem listenInFind_state : (listenInFind env s).state = s.state := by
  unfold listenInFind
  dsimp only
  split
  · rfl
  split
  · rfl
  · split <;> rfl

theorem continueFind_state : (continueFind env s).state = .search := by
  unfold continueFind
  dsimp only
  split
  · exact continueFindLoop_state _ _
  · exact (listenInFind_state).trans (continueFindLoop_state _ _)

theorem sdTimed_of_search {c : Control} (h : c.state = .search) : SdTimed c :=
  fun hstate => nomatch h.symm.trans hstate

theorem timed_rxGasInitialResp (h : SdTimed s.toControl)
    (hanswer : sdExpected s sa = true → answersInitial data = true) :
    SdTimed (rxGasInitialResp env s sa data rxFreq).toControl := by
  unfold rxGasInitialResp
  split
  · exact h
  rename_i hexp
  have hanswer := hanswer (by simpa using hexp)
  unfold answersInitial at hanswer
  split
  · rename_i hparse
    simp [hparse] at hanswer
  rename_i resp hparse
  simp only [hparse, Option.any_some, Bool.and_eq_true, decide_eq_true_eq] at hanswer
  rw [if_neg (by simp [hanswer.1])]
  split
  · rename_i hpayload
    simp [hpayload] at hanswer
  · exact sdTimed_of_search continueFind_state

theorem timed_rxGasComebackResp (h : SdTimed s.toControl)
    (hanswer : sdExpected s sa = true → answersComeback env s data = true) :
    SdTimed (rxGasComebackResp env s sa data rxFreq).toControl := by
  unfold rxGasComebackResp
  split
  · exact h
  rename_i hexp
  have hanswer := hanswer (by simpa using hexp)
  unfold answersComeback at hanswer
  dsimp only
  split
  · rename_i hparse
    simp [hparse] at hanswer
  rename_i resp hparse
  simp only [hparse, Option.any_some, Bool.and_eq_true, Bool.not_eq_true'] at hanswer
  obtain ⟨⟨hpayload, halloc⟩, hmore⟩ := hanswer
  split
  · rename_i hnone
    rw [show s.clearTimeout.sdRxResp = s.sdRxResp from rfl] at hnone
    simp [hnone] at hpayload
  · rw [if_neg (by simp [halloc]), if_neg (by simp [hmore])]
    exact sdTimed_of_search continueFind_state

theorem timed_exec (h : SdTimed s.toControl) (hok : CompletesQuery s step) :
    SdTimed (exec s step).toControl := by
  by_cases hgas : step.op.isGasResp = true
  · unfold CompletesQuery at hok
    unfold exec
    dsimp only
    split <;> rename_i hop <;> first | (simp [hop, Op.isGasResp] at hgas; done) | skip
    · rw [hop] at hok
      exact timed_rxGasInitialResp h hok
    · rw [hop] at hok
      exact timed_rxGasComebackResp h hok
  · by_cases hscan : completesScan s step.op = true
    · unfold exec
      dsimp only
      split <;> rename_i hop <;> first | (simp [hop, completesScan] at hscan; done) | skip
      · exact timed_scanResHandled h
      · split
        · exact timed_scanTimeout h
        · exact h
    · by_cases hlisten : callsListen s step.op = true
      · unfold exec
        dsimp only
        split <;> rename_i hop <;> first | (simp [hop, callsListen] at hlisten; done) | skip
        · exact timed_listen h
        · split
          · exact timed_extListenTimeout h
          · exact h
      · exact (leaves_exec (r := .listen) (by simpa using hgas) (by simpa using hscan)
          fun hcalls => absurd hcalls hlisten).timed h

end Lemmas

-- In every run in which each response of the peer completes its query, the timeout is registered while
-- the module waits for the answer, and it resumes the find.
theorem sd_during_find_timed {cfg : Config} {tie : Bool} {capab : DevCapab} {s : P2pData}
    (hrun : Runs exec CompletesQuery (init cfg tie capab) s) (hstate : s.state = .sdDuringFind) :
    s.stateTimeout = true ∧ ∀ env, (exec s ⟨env, .stateTimeout⟩).state = .search := by
  have htimed : SdTimed s.toControl :=
    hrun.rule (I := fun u => SdTimed u.toControl) (fun hstate => nomatch hstate)
      fun _ _ h hok => timed_exec h hok
  refine ⟨htimed hstate, fun env => ?_⟩
  simp only [exec, htimed hstate, if_true, stateTimeout, hstate]
  exact continueFind_state

def sdConfig : Config where
  devAddr := 1
  country := ⟨85, 83, 4⟩
  regClass := 81
  channel := 1
  opRegClass := 81
  opChannel := 6
  channels := [⟨81, [1, 6, 11]⟩]

def querySteps : List Step :=
  [⟨{}, .sdRequest 1 none⟩, ⟨{}, .find 0 0⟩,
    ⟨{}, .scanResHandler 2 2412 { deviceAddr := some 2, capability := some ⟨true, true⟩ }⟩,
    ⟨{}, .scanResHandled⟩, ⟨{}, .sendActionCb .success⟩]

def stalledQuery : P2pData :=
  exec (querySteps.foldl exec (init sdConfig false ⟨true, true⟩)) ⟨{}, .rxGasInitialResp 2 [0] 2412⟩

def answeredSteps : List Step :=
  querySteps.take 3 ++
    [⟨{}, .scanResHandler 3 2412 { deviceAddr := some 3, capability := some ⟨true, true⟩ }⟩,
      ⟨{}, .scanResHandled⟩, ⟨{}, .sendActionCb .success⟩,
      ⟨{}, .rxGasInitialResp 3 [1, 0, 0, 0, 0, 108, 2, 0x7f, 0, 10, 0, 0xdd, 0xdd, 6, 0, 0x50, 0x6f, 0x9a, 9, 0, 0]
        2412⟩,
      ⟨{}, .sendActionCb .success⟩]

def answeredQuery : P2pData := answeredSteps.foldl exec (init sdConfig false ⟨true, true⟩)

theorem sd_during_find_timed_query :
    ((answeredSteps.take 6).foldl exec (init sdConfig false ⟨true, true⟩)).sdPeer = some 3 ∧
      answeredQuery.sdPeer = some 2 ∧ answeredQuery.stateTimeout = true ∧
      ∀ env, (exec answeredQuery ⟨env, .stateTimeout⟩).state = .search := by
  refine ⟨by decide, by decide, sd_during_find_timed (Runs.of_list answeredSteps ?_) (by decide)⟩
  exact ⟨trivial, trivial, trivial, trivial, trivial, trivial, fun _ => by decide, trivial, trivial⟩

-- A response that is too short clears the timeout and leaves the module waiting.
theorem sd_during_find_stalls :
    Runs exec (fun _ _ => True) (init sdConfig false ⟨true, true⟩) stalledQuery ∧
      stalledQuery.state = .sdDuringFind ∧ stalledQuery.stateTimeout = false :=
  ⟨.step _ (Runs.of_list querySteps ⟨trivial, trivial, trivial, trivial, trivial, trivial⟩) trivial,
    by decide, by decide⟩

end WpaSupplicant.P2p
