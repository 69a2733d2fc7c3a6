import WpaSupplicant.Supplicant.Rx.Lemmas

namespace WpaSupplicant.Supplicant

open Lib.Octets KeyData

section Events

variable (cr : Crypto) (env : Env) {a c : Ctx}

def RequestOut (sm : Sm) : Out → Prop
  | .micOver k g => k = sm.ptk.kck ∧ g.keyInfo.request = true
  | .etherSend _ _ => True
  | _ => False

theorem wpaSmKeyRequest_does (error pairwise : Bool) (a : Ctx) :
    Does Kept (RequestOut a.sm) a (wpaSmKeyRequest cr env error pairwise a) := by
  have h0 : Does Kept (RequestOut a.sm) a a.ask := Does.ask (.refl (.refl a.sm))
  simp only [wpaSmKeyRequest]
  split
  · exact h0
  split
  · exact h0.ask
  have h1 : Does Kept (RequestOut a.sm) a (nextRequestCounter a.ask.ask) :=
    h0.ask.update _ (h0.rel.trans ⟨⟨⟨rfl, rfl, rfl, rfl, rfl⟩, rfl, rfl, rfl, rfl, rfl⟩, rfl⟩)
  refine wpaEapolKeySend_does cr env _ _ _ _ h1 h1.rel.bssid fun o ho => ?_
  cases o with
  | micOver k g =>
    obtain ⟨hk, mic, rfl⟩ := ho
    refine ⟨?_, ?_⟩
    · split at hk
      · exact (Option.some.inj hk).symm
      · simp at hk
    · simp [newFrame, KeyInfo.request, KeyInfo.requestBit]
  | etherSend dst g => trivial
  | _ => exact ho.elim

theorem RequestOut.peerOut {sm : Sm} (o : Out) (h : RequestOut sm o) : PeerOut o := by
  cases o with
  | micOver k g => trivial
  | etherSend dst g => trivial
  | _ => exact h.elim

theorem wpaSmStkstart_does (peer : Addr) (a : Ctx) :
    Does KeptKeys PeerOut a (wpaSmStkstart cr env peer a) := by
  have h0 : Does KeptKeys PeerOut a a := .refl (.refl a.sm)
  simp only [wpaSmStkstart]
  split
  · exact h0
  split
  · have h1 : Does KeptKeys PeerOut a (nextRequestCounter a.ask) :=
      h0.ask.update _ (h0.rel.request _)
    split
    · exact h1
    · refine addPeer_does _ ?_
      exact wpaEapolKeySend_does cr env _ _ _ _ h1 h1.rel.bssid SentFrame.peerOut
  · exact h0.ask

theorem exec_peerOut {sm : Sm} {e : Event} (he : ∀ src data, e ≠ .rxEapol src data)
    (h : exec cr env sm e = some c) : ∀ o ∈ c.out, PeerOut o := by
  have hof {R : Sm → Sm → Prop} {A : Out → Prop} {sm' : Sm} {c' : Ctx}
      (hdoes : Does R A ⟨sm', 0, []⟩ c') (hA : ∀ o, A o → PeerOut o) : ∀ o ∈ c'.out, PeerOut o := by
    obtain ⟨l, hl, hall⟩ := hdoes.emitted
    intro o ho
    rw [hl] at ho
    exact hA o (hall o (by simpa using ho))
  cases e with
  | rxEapol src data => exact absurd rfl (he src data)
  | keyRequest error pairwise =>
    obtain rfl := Option.some.inj h
    exact hof (wpaSmKeyRequest_does cr env error pairwise _) RequestOut.peerOut
  | rekeyPtk =>
    simp only [exec] at h
    split at h
    · obtain rfl := Option.some.inj h
      exact hof (wpaSmKeyRequest_does cr env false true _) RequestOut.peerOut
    · simp at h
  | stkstart peer =>
    obtain rfl := Option.some.inj h
    exact hof (wpaSmStkstart_does cr env peer _) fun o ho => ho
  | _ =>
    obtain rfl := Option.some.inj h
    simp

-- Between two associations the replay counter is never forgotten and never set back by an
-- event that is not a frame.
theorem exec_counter {sm : Sm} {e : Event} (he : ∀ src data, e ≠ .rxEapol src data)
    (hassoc : ∀ bssid, e ≠ .notifyAssoc bssid)
    (hdriver : ∀ ctr, e = .updateReplayCtr ctr → sm.rxReplayCounter ≤ ctr) (h : exec cr env sm e = some c) :
    c.sm.rxReplayCounterSet = sm.rxReplayCounterSet ∧
      sm.rxReplayCounter ≤ c.sm.rxReplayCounter := by
  have hof {sm' : Sm} (hs : sm'.rxReplayCounterSet = sm.rxReplayCounterSet)
      (hc : sm'.rxReplayCounter = sm.rxReplayCounter) :
      sm'.rxReplayCounterSet = sm.rxReplayCounterSet ∧ sm.rxReplayCounter ≤ sm'.rxReplayCounter :=
    ⟨hs, by rw [hc]; exact BitVec.le_refl _⟩
  cases e with
  | rxEapol src data => exact absurd rfl (he src data)
  | notifyAssoc bssid => exact absurd rfl (hassoc bssid)
  | keyRequest error pairwise =>
    obtain rfl := Option.some.inj h
    have hk := (wpaSmKeyRequest_does cr env error pairwise ⟨sm, 0, []⟩).rel
    exact hof hk.rxReplayCounterSet hk.rxReplayCounter
  | rekeyPtk =>
    simp only [exec] at h
    split at h
    · obtain rfl := Option.some.inj h
      have hk := (wpaSmKeyRequest_does cr env false true
        ⟨{ sm with rekeyTimer := false }, 0, []⟩).rel
      exact hof hk.rxReplayCounterSet hk.rxReplayCounter
    · simp at h
  | stkstart peer =>
    obtain rfl := Option.some.inj h
    have hk := (wpaSmStkstart_does cr env peer ⟨sm, 0, []⟩).rel
    exact hof hk.rxReplayCounterSet hk.rxReplayCounter
  | updateReplayCtr ctr =>
    obtain rfl := Option.some.inj h
    exact ⟨rfl, hdriver ctr rfl⟩
  | setPmkFromPmksa =>
    obtain rfl := Option.some.inj h
    rw [wpaSmSetPmkFromPmksa]
    split
    · exact hof rfl rfl
    · exact hof rfl rfl
  | _ =>
    obtain rfl := Option.some.inj h
    exact hof rfl rfl

end Events

def acceptedIn (r : Record) : List ReplayCounter :=
  match r.event with
  | .rxEapol src _ =>
    if rxPeer r.sm src = none then
      r.out.filterMap fun
        | .micVerified _ f => some f.replayCounter
        | _ => none
    else []
  | _ => []

def since {α : Type} (g : Record → List α) : List Record → List α
  | [] => []
  | r :: tr =>
    match r.event with
    | .notifyAssoc _ => []
    | _ => g r ++ since g tr

def acceptedSince (tr : List Record) : List ReplayCounter := since acceptedIn tr

section Accepted

variable {cr : Crypto} {env : Env} {src : Addr} {f : EapolKey}

variable {sm : Sm} {tr : List Record}

-- A verified frame contributes its replay counter, and a frame that was not verified nothing.
theorem acceptedIn_of_handled (data : Octets) {c : Ctx} (hpeer : rxPeer sm src = none)
    (h : Handled cr f ⟨sm, 0, []⟩ c) :
    acceptedIn ⟨sm, .rxEapol src data, c.out, c.sm⟩ = [f.replayCounter] := by
  obtain ⟨c1, hver, -, -, l, hl, hall⟩ := h.verified
  have hnone : (l.filterMap fun
      | .micVerified _ f => some f.replayCounter
      | _ => none : List ReplayCounter) = [] := by
    rw [List.filterMap_eq_nil_iff]
    intro o ho
    cases o with
    | micVerified kck g =>
      rcases hall _ ho with h | ⟨_, _, -, -, h⟩ | ⟨-, h⟩
      · simp at h
      · exact h.elim
      · exact h.elim
    | _ => rfl
  simp only [acceptedIn, hpeer, if_true]
  rw [hl, hver.out]
  simpa using hnone

theorem acceptedIn_of_unverified (src : Addr) (data : Octets) {c : Ctx}
    (h : Unverified cr f ⟨sm, 0, []⟩ c) : acceptedIn ⟨sm, .rxEapol src data, c.out, c.sm⟩ = [] := by
  obtain ⟨l, hl, hall⟩ := h.emitted
  simp only [acceptedIn]
  split
  · rw [List.filterMap_eq_nil_iff]
    intro o ho
    cases o with
    | micVerified kck g =>
      rw [hl, List.nil_append] at ho
      rcases hall _ ho with ⟨kek, h⟩ | h | ⟨-, h⟩
      · simp at h
      · exact h.elim
      · exact h.elim
    | _ => rfl
  · rfl

def Counted (tr : List Record) (sm : Sm) : Prop :=
  ∀ n ∈ acceptedSince tr, sm.rxReplayCounterSet = true ∧ n ≤ sm.rxReplayCounter

theorem Counted.lt (h : Counted tr sm) (hpeer : rxPeer sm src = none) (hchecks : rxChecks sm src f = true) :
    ∀ n ∈ acceptedSince tr, n < f.replayCounter := by
  intro n hn
  obtain ⟨hset, hle⟩ := h n hn
  simp only [rxChecks, hpeer, Option.bind_none, rxReplayOk, hset, Bool.true_and, Bool.and_eq_true,
    Bool.not_eq_true', decide_eq_false_iff_not, BitVec.not_le] at hchecks
  rw [BitVec.le_def] at hle
  have hlt := hchecks.1.2
  rw [BitVec.lt_def] at hlt ⊢
  omega

theorem Counted.step {sm' : Sm} {e : Event} {out : List Out} (h : Counted tr sm)
    (hs : Step cr sm e out sm') (hdriver : Record.counts ⟨sm, e, out, sm'⟩ = true) :
    Counted (⟨sm, e, out, sm'⟩ :: tr) sm' := by
  obtain ⟨env, tick, hexec⟩ := hs
  by_cases hrx : ∃ src data, e = .rxEapol src data
  · obtain ⟨src, data, rfl⟩ := hrx
    have hc := Option.some.inj hexec
    intro n hn
    rw [acceptedSince, since, List.mem_append] at hn
    cases hpeer : rxPeer sm src with
    | some k =>
      have hkept := wpaSmRxEapol_kept_of_some cr env data ⟨sm, 0, []⟩ hpeer
      rw [hc] at hkept
      rw [hkept.rxReplayCounterSet, hkept.rxReplayCounter]
      rcases hn with hn | hn
      · simp [acceptedIn, hpeer] at hn
      · exact h n hn
    | none =>
      rcases wpaSmRxEapol_of_none cr env src data ⟨sm, 0, []⟩ hpeer with
        ⟨hsm, hout⟩ | ⟨f, -, hchecks, ⟨-, hun⟩ | ⟨-, hha⟩⟩
      · rw [hc] at hsm hout
        simp only at hsm hout
        subst hsm hout
        rcases hn with hn | hn
        · simp [acceptedIn] at hn
        · exact h n hn
      · rw [hc] at hun
        rw [hun.kept.rxReplayCounterSet, hun.kept.rxReplayCounter]
        rcases hn with hn | hn
        · have hnil := acceptedIn_of_unverified src data hun
          rw [hnil] at hn
          simp at hn
        · exact h n hn
      · rw [hc] at hha
        have hacc := acceptedIn_of_handled data hpeer hha
        obtain ⟨c1, hver, hkept, -⟩ := hha.verified
        rw [hkept.rxReplayCounterSet, hkept.rxReplayCounter, hver.counter]
        refine ⟨hver.counterSet, ?_⟩
        rcases hn with hn | hn
        · rw [hacc, List.mem_singleton] at hn
          rw [hn]
          exact BitVec.le_refl _
        · exact BitVec.le_of_lt (h.lt hpeer hchecks n hn)
  · have he : ∀ src data, e ≠ .rxEapol src data := fun src data heq => hrx ⟨src, data, heq⟩
    by_cases hassoc : ∃ bssid, e = .notifyAssoc bssid
    · obtain ⟨bssid, rfl⟩ := hassoc
      intro n hn
      simp [acceptedSince, since] at hn
    have hno : ∀ bssid, e ≠ .notifyAssoc bssid := fun bssid heq => hassoc ⟨bssid, heq⟩
    have hctr : ∀ ctr, e = .updateReplayCtr ctr → sm.rxReplayCounter ≤ ctr := by
      rintro ctr rfl
      exact of_decide_eq_true hdriver
    obtain ⟨hset, hle⟩ := exec_counter cr env he hno hctr hexec
    intro n hn
    have hn' : n ∈ acceptedSince tr := by
      cases e with
      | rxEapol src data => exact absurd rfl (he src data)
      | notifyAssoc bssid => exact absurd rfl (hno bssid)
      | _ => simpa [acceptedSince, since, acceptedIn] using hn
    obtain ⟨hs, hl⟩ := h n hn'
    exact ⟨hset.trans hs, BitVec.le_trans hl hle⟩

theorem Run.counted (h : Run cr tr sm) (hdriver : DriverCounts tr) : Counted tr sm := by
  induction h with
  | init conf =>
    intro n hn
    simp [acceptedSince, since] at hn
  | step h hs ih =>
    obtain ⟨hlast, hdriver⟩ := List.forall_mem_cons.1 hdriver
    exact (ih hdriver).step hs hlast

end Accepted

def execAll (cr : Crypto) (env : Env) : List Record → Sm → List Event → Option (List Record × Sm)
  | tr, sm, [] => some (tr, sm)
  | tr, sm, e :: es =>
    match exec cr env sm e with
    | none => none
    | some c => execAll cr env (⟨sm, e, c.out, c.sm⟩ :: tr) c.sm es

theorem Run.execAll {cr : Crypto} {env : Env} {es : List Event} {tr tr' : List Record} {sm sm' : Sm}
    (h : Run cr tr sm) (he : execAll cr env tr sm es = some (tr', sm')) : Run cr tr' sm' := by
  induction es generalizing tr sm with
  | nil =>
    obtain ⟨rfl, rfl⟩ := Prod.mk.inj (Option.some.inj he)
    exact h
  | cons e es ih =>
    rw [Supplicant.execAll] at he
    cases hc : exec cr env sm e with
    | none => simp [hc] at he
    | some c =>
      simp only [hc] at he
      exact ih (h.step ⟨env, c.tick, hc⟩) he

def reached (cr : Crypto) (env : Env) (conf : Config) (es : List Event) : List Record × Sm :=
  (execAll cr env [] (initial conf) es).getD ([], initial conf)

theorem run_reached (cr : Crypto) (env : Env) (conf : Config) (es : List Event) :
    Run cr (reached cr env conf es).1 (reached cr env conf es).2 := by
  rw [reached]
  cases h : execAll cr env [] (initial conf) es with
  | none => exact .init conf
  | some r => exact (Run.init conf).execAll h

theorem step_rxEapol (cr : Crypto) (env : Env) (sm : Sm) (src : Addr) (data : Octets) :
    Step cr sm (.rxEapol src data) (wpaSmRxEapol cr env src data ⟨sm, 0, []⟩).1.out
      (wpaSmRxEapol cr env src data ⟨sm, 0, []⟩).1.sm := ⟨env, _, rfl⟩

end WpaSupplicant.Supplicant
