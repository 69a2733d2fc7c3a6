import WpaSupplicant.Authenticator.Receive

namespace WpaSupplicant.Authenticator

open Lib.Octets Lib.Window KeyData

def Sta.micChecked (sm : Sta) : Sta :=
  if sm.ptkValid then
    { sm with micVerified := true, eapolTimer := false, pending1of4Timeout := false }
  else { sm with micVerified := false }

def Sta.counted (sm : Sta) (f : EapolKey) : Sta :=
  if f.keyInfo.request then
    { sm with reqReplayCounterUsed := true, reqReplayCounter := f.replayCounter }
  else { sm with keyReplay := retire sm.keyReplay }

variable {ap : Ap} {f : EapolKey} {c c' : Ctx} {cr : Crypto}

theorem receiveState_true (h : receiveState ap f c = (c', true)) : c' = c := by
  simp only [receiveState] at h
  split at h
  · split at h
    · simp at h
    split at h
    · simp at h
    split at h
    · simp at h
    split at h
    · simp at h
    · exact (Prod.mk.inj h).1.symm
  all_goals exact (Prod.mk.inj h).1.symm

theorem receiveMic_true (h : receiveMic cr f c = (c', true)) :
    f.keyInfo.ack = false ∧ f.keyInfo.mic = true ∧
      (c.sm.ptkValid = true → wpaVerifyKeyMic cr c.sm.ptk f = true) ∧
      c' = { c with sm := c.sm.micChecked } := by
  simp only [receiveMic] at h
  split at h
  · simp at h
  rename_i hbits
  simp only [Bool.or_eq_true, Bool.not_eq_true', not_or, Bool.not_eq_true,
    Bool.not_eq_false] at hbits
  refine ⟨hbits.1, hbits.2, ?_⟩
  rw [Sta.micChecked]
  split at h
  · rename_i hvalid
    split at h
    · simp at h
    rename_i hmic
    simp only [Bool.not_eq_true', Bool.not_eq_false] at hmic
    exact ⟨fun _ => hmic, by rw [if_pos hvalid]; exact (Prod.mk.inj h).1.symm⟩
  · rename_i hvalid
    exact ⟨fun hv => absurd hv hvalid, by rw [if_neg hvalid]; exact (Prod.mk.inj h).1.symm⟩

theorem receiveCount_true (h : receiveCount f c = (c', true)) :
    (f.keyInfo.request = true → c.sm.micVerified = true) ∧
      c' = { c with sm := c.sm.counted f } := by
  rw [receiveCount] at h
  rw [Sta.counted]
  split at h
  · rename_i hreq
    split at h
    · rename_i hmic
      exact ⟨fun _ => hmic, by rw [if_pos hreq]; exact (Prod.mk.inj h).1.symm⟩
    · simp at h
  · rename_i hreq
    exact ⟨fun hr => absurd hr hreq, by rw [if_neg hreq]; exact (Prod.mk.inj h).1.symm⟩

-- All that is known of a frame `wpa_receive` acts on
structure Accepted (cr : Crypto) (ap : Ap) (f : EapolKey) (c : Ctx) : Prop where
  header : receiveHeaderOk c.sm f = true
  state : receiveState ap f c = (c, true)
  ack : f.keyInfo.ack = false
  mic : f.keyInfo.mic = true
  verified : c.sm.ptkValid = true → wpaVerifyKeyMic cr c.sm.ptk f = true
  request : f.keyInfo.request = true → c.sm.ptkValid = true

theorem receivePre_true (h : receivePre cr ap f c = (c', true)) :
    Accepted cr ap f c ∧ c' = { c with sm := c.sm.micChecked.counted f } := by
  rw [receivePre] at h
  split at h
  · simp at h
  rename_i hok
  simp only [Bool.not_eq_true', Bool.not_eq_false] at hok
  cases hstate : receiveState ap f c with
  | mk c1 b1 =>
    rw [hstate] at h
    cases b1 with
    | false => simp at h
    | true =>
      obtain rfl := receiveState_true hstate
      cases hmic : receiveMic cr f c1 with
      | mk c2 b2 =>
        simp only [hmic] at h
        cases b2 with
        | false => simp at h
        | true =>
          obtain ⟨hack, hbit, hver, rfl⟩ := receiveMic_true hmic
          obtain ⟨hreq, rfl⟩ := receiveCount_true h
          refine ⟨⟨hok, hstate, hack, hbit, hver, fun hr => ?_⟩, rfl⟩
          have hm := hreq hr
          by_contra hv
          simp [Sta.micChecked, hv] at hm

-- A frame that is not accepted may clear `MICVerified`, and message 2/4 may be rejected for
-- lack of entropy or because of its IE; nothing else changes.
theorem receivePre_false (h : receivePre cr ap f c = (c', false)) :
    (c'.sm = c.sm ∨ c'.sm = { c.sm with micVerified := false } ∨ c'.sm = c.sm.micChecked) ∧
    (c'.grp = c.grp ∨
      c'.grp = { c.grp with reject4wayHsForEntropy := false, firstStaSeen := false }) ∧
    c'.tick = c.tick ∧ (c'.out = c.out ∨ c'.out = c.out ++ [.disconnect c.sm.addr]) := by
  rw [receivePre] at h
  split at h
  · obtain ⟨rfl, -⟩ := Prod.mk.inj h
    exact ⟨.inl rfl, .inl rfl, rfl, .inl rfl⟩
  cases hstate : receiveState ap f c with
  | mk c1 b1 =>
    rw [hstate] at h
    cases b1 with
    | false =>
      obtain ⟨rfl, -⟩ := Prod.mk.inj h
      simp only [receiveState] at hstate
      split at hstate
      · split at hstate
        · obtain ⟨rfl, -⟩ := Prod.mk.inj hstate
          exact ⟨.inl rfl, .inl rfl, rfl, .inl rfl⟩
        split at hstate
        · obtain ⟨rfl, -⟩ := Prod.mk.inj hstate
          exact ⟨.inl rfl, .inr rfl, rfl, .inr rfl⟩
        split at hstate
        · obtain ⟨rfl, -⟩ := Prod.mk.inj hstate
          exact ⟨.inl rfl, .inl rfl, rfl, .inl rfl⟩
        split at hstate
        · obtain ⟨rfl, -⟩ := Prod.mk.inj hstate
          exact ⟨.inl rfl, .inl rfl, rfl, .inr rfl⟩
        · simp at hstate
      all_goals
        obtain ⟨rfl, -⟩ := Prod.mk.inj hstate
        exact ⟨.inl rfl, .inl rfl, rfl, .inl rfl⟩
    | true =>
      obtain rfl := receiveState_true hstate
      cases hmic : receiveMic cr f c1 with
      | mk c2 b2 =>
        simp only [hmic] at h
        cases b2 with
        | false =>
          obtain ⟨rfl, -⟩ := Prod.mk.inj h
          simp only [receiveMic] at hmic
          split at hmic
          · obtain ⟨rfl, -⟩ := Prod.mk.inj hmic
            exact ⟨.inl rfl, .inl rfl, rfl, .inl rfl⟩
          split at hmic
          · split at hmic
            · obtain ⟨rfl, -⟩ := Prod.mk.inj hmic
              exact ⟨.inr (.inl rfl), .inl rfl, rfl, .inl rfl⟩
            · simp at hmic
          · simp at hmic
        | true =>
          obtain ⟨-, -, -, rfl⟩ := receiveMic_true hmic
          simp only [receiveCount] at h
          split at h
          · split at h
            · simp at h
            · obtain ⟨rfl, -⟩ := Prod.mk.inj h
              exact ⟨.inr (.inr rfl), .inl rfl, rfl, .inl rfl⟩
          · simp at h

-- The station with a frame that waits for the machines
def Sta.posted (sm : Sta) (f : EapolKey) : Sta :=
  { sm with
    lastRxEapolKey := some f
    rxEapolKeySecure := f.keyInfo.secure
    eapolKeyReceived := true
    eapolKeyPairwise := f.keyInfo.keyType
    eapolKeyRequest := f.keyInfo.request
    snonce := f.keyNonce }

theorem receivePost_cases (env : Env) (f : EapolKey) (c : Ctx) :
    receivePost env f c = ({ c.ask with sm := { c.sm with lastRxEapolKey := none } }, false) ∨
      receivePost env f c = ({ c.ask with sm := c.sm.posted f }, true) := by
  rw [receivePost]
  split
  · exact .inl rfl
  · exact .inr rfl

theorem msgOf_pairwise (h : msgOf f = .pairwise2 ∨ msgOf f = .pairwise4) :
    f.keyInfo.request = false ∧ f.keyInfo.keyType = true := by
  simp only [msgOf] at h
  cases hsmk : f.keyInfo.smkMessage <;> cases hreq : f.keyInfo.request <;>
    cases herr : f.keyInfo.error <;> cases hkey : f.keyInfo.keyType <;>
    simp [hsmk, hreq, herr, hkey] at h ⊢

theorem msgOf_pairwise_smk (h : msgOf f = .pairwise2 ∨ msgOf f = .pairwise4) :
    f.keyInfo.smkMessage = false := by
  by_contra hsmk
  simp only [msgOf, Bool.eq_true_of_not_eq_false hsmk] at h
  cases hreq : f.keyInfo.request <;> cases herr : f.keyInfo.error <;> simp [hreq, herr] at h

theorem msgOf_pairwise4 (h : msgOf f = .pairwise4) : f.keyDataLength = 0 := by
  simp only [msgOf] at h
  split_ifs at h with h1 h2 h3 h4 h5 h6
  exact h6

theorem msgOf_pairwise2 (h : msgOf f = .pairwise2) : f.keyDataLength ≠ 0 := by
  simp only [msgOf] at h
  split_ifs at h with h1 h2 h3 h4 h5 h6
  exact h6

theorem Accepted.outstanding (h : Accepted cr ap f c) (hreq : f.keyInfo.request = false) :
    wpaReplayCounterValid c.sm f.replayCounter = true := by
  have hok := h.header
  simp only [receiveHeaderOk, hreq, Bool.and_eq_true] at hok
  exact hok.2

theorem Accepted.pairwise2 (h : Accepted cr ap f c) (hmsg : msgOf f = .pairwise2) :
    (c.sm.ptkState = .ptkstart ∨ c.sm.ptkState = .ptkcalcnegotiating) ∧
      (wpaParseKdeIes (kdeOf f)).1 = true ∧
      wpaCompareRsnIe c.sm.wpaIe (eapolKeyIe (wpaParseKdeIes (kdeOf f)).2) = true := by
  have hstate := h.state
  simp only [receiveState, hmsg] at hstate
  split at hstate
  · simp at hstate
  rename_i hst
  split at hstate
  · simp at hstate
  split at hstate
  · simp at hstate
  rename_i hparse
  split at hstate
  · simp at hstate
  rename_i hie
  refine ⟨?_, by simpa using hparse, by simpa using hie⟩
  by_cases h1 : c.sm.ptkState = .ptkstart
  · exact .inl h1
  · exact .inr (not_not.mp fun h2 => hst ⟨h1, h2⟩)

theorem Accepted.pairwise4 (h : Accepted cr ap f c) (hmsg : msgOf f = .pairwise4) :
    c.sm.ptkState = .ptkinitnegotiating ∧ c.sm.ptkValid = true := by
  have hstate := h.state
  simp only [receiveState, hmsg, Prod.mk.injEq, true_and, Bool.and_eq_true, decide_eq_true_eq]
    at hstate
  exact hstate

end WpaSupplicant.Authenticator
