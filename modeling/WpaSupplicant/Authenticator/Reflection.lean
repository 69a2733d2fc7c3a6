import WpaSupplicant.Authenticator.Events.Lemmas

namespace WpaSupplicant.Authenticator

open Lib.Octets Lib.Window Lib.Effect Lib.Loop KeyData

-- A MIC is computed only over frames that ask for an answer and over SMK messages: nothing that
-- the Authenticator sends can come back to it as an answer.
def Asks : Out → Prop
  | .micOver _ f => f.keyInfo.ack = true ∨ f.keyInfo.smkMessage = true
  | _ => True

theorem Quiet.asks {o : Out} (h : Quiet o) : Asks o := by
  cases o with
  | micOver kck f => exact h
  | _ => trivial

theorem DoneOut.asks {sm : Sta} {o : Out} (h : DoneOut sm o) : Asks o := by
  rcases h with h | ⟨alg, len, rfl⟩ | rfl | rfl
  · exact h.asks
  · trivial
  · trivial
  · trivial

def Asking (out : List Out) : Prop := ∀ o ∈ out, Asks o

theorem Asking.append {out out' : List Out} (h : Asking out)
    (hout : ∃ l, out' = out ++ l ∧ ∀ o ∈ l, Asks o) : Asking out' := by
  obtain ⟨l, rfl, hall⟩ := hout
  intro o ho
  rcases List.mem_append.mp ho with ho | ho
  · exact h o ho
  · exact hall o ho

theorem Asking.quiet {out out' : List Out} (h : Asking out)
    (hout : ∃ l, out' = out ++ l ∧ ∀ o ∈ l, Quiet o) : Asking out' := by
  obtain ⟨l, hl, hall⟩ := hout
  exact h.append ⟨l, hl, fun o ho => (hall o ho).asks⟩

section Step

variable {cr : Crypto} {env : Env}

theorem PtkStep.asking {ap : Ap} {c c' : Ctx} (h : PtkStep cr env ap c c') (hask : Asking c.out) :
    Asking c'.out := by
  cases h with
  | stay hcalm hcalc hgoes hsm | enter hgoes henters hchanged | draw hfrom hgoes hentered =>
    exact hask.quiet hgoes.emitted
  | msg2 hcalm hframe hstate =>
    rcases ptkPtkcalcnegotiating_cases cr env ap c with heq | ⟨f, pmk, -, -, heq⟩
    · rw [heq]
      exact hask
    · rw [heq]
      exact hask.append ⟨[.derivePtk _], rfl, fun o ho => List.mem_singleton.mp ho ▸ trivial⟩
  | msg4 hcalm hframe hmic hstate =>
    obtain ⟨l, hl, hdone⟩ := (ptkPtkinitdone_completes env ap c).emitted
    refine hask.append ⟨_, hl, fun o ho => ?_⟩
    rcases List.mem_cons.mp ho with rfl | ho
    · trivial
    · exact (hdone o ho).asks

theorem roundFn_asking (ap : Ap) {c : Ctx} (h : Asking c.out) :
    Asking (roundFn cr env ap c).out := by
  obtain ⟨c1, hstep, hgoes, -⟩ := @roundFn_steps cr env ap c
  have h0 : Asking c.unmarked.out := h
  exact (hstep.asking h0).quiet hgoes.emitted

theorem wpaSmStep_asking {fuel i : ℕ} {W W' : Auth} (hrest : Resting W) (h : Asking W.out)
    (hs : wpaSmStep cr env fuel W i = some W') : Asking W'.out := by
  cases hi : W.sta i with
  | none =>
    obtain rfl := wpaSmStep_none hi hs
    exact h
  | some sm =>
    obtain ⟨W1, hrounds, rfl⟩ := wpaSmStep_rounds hrest.noRekey hrest.idle hi hs
    have hround (V : Auth) (hV : Asking V.out) : Asking (smRound cr env i V).out :=
      smRound_rule (I := fun V => Asking V.out) (fun _ _ hmove hI => hI.quiet hmove.emitted)
        (fun U _ hI _ => roundFn_asking U.ap hI) V hV
    have h0 : Asking (W.modSta i (Sta.looping true)).out := h
    exact (hrounds.rule (I := fun V => Asking V.out) (T := fun _ => True)
      (fun V hV => ⟨hround V hV, trivial⟩) h0).1

theorem asking_closed : Closed cr env fun W => Resting W ∧ Asking W.out where
  groups W W' hmove hfixed h :=
    ⟨(@resting_closed cr env).groups W W' hmove hfixed h.1, h.2.quiet hmove.emitted⟩
  fn W i sm c h hi hc := ⟨put_resting h.1 hi hc, h.2.quiet hc.emitted⟩
  step fuel W i W' h hs := ⟨(wpaSmStep_resting h.1 hs).1, wpaSmStep_asking h.1 h.2 hs⟩
  join W i addr pos h hi := by
    refine ⟨(@resting_closed cr env).join W i addr pos h.1 hi, ?_⟩
    simpa only [wpaAuthStaInit, hi, Option.isSome_none, Bool.false_eq_true, if_false] using h.2
  leave W i h := by
    refine ⟨(@resting_closed cr env).leave W i h.1, ?_⟩
    cases hi : W.sta i with
    | none => simpa only [wpaAuthStaDeinit, Auth.withSta_none hi] using h.2
    | some sm =>
      have hput : Asking (W.put i sm.group (clearGUpdate (W.ctx sm))).out :=
        h.2.quiet (clearGUpdate_harmless (W.ctx sm)).emitted
      simpa only [wpaAuthStaDeinit, Auth.withSta_some hi] using hput

theorem wpaRekeyGtk_asking {fuel : ℕ} {W W' : Auth} (hrest : Resting W) (h : Asking W.out)
    (hs : wpaRekeyGtk cr env fuel W = some W') : Resting W' ∧ Asking W'.out :=
  (wpaRekeyGtk_rule (I := fun V => Asking V.out) (fun _ _ hmove hI => hI.quiet hmove.emitted)
    (fun _ _ _ hI => hI) (fun _ _ _ hrest hI hs => wpaSmStep_asking hrest hI hs) hrest h hs).symm

theorem wpaAuthStaSetVlan_asking {W : Auth} (h : Asking W.out) (i vlanId : ℕ) :
    Asking (wpaAuthStaSetVlan cr env W i vlanId).out := by
  rcases @wpaAuthStaSetVlan_cases cr env W i vlanId with
    ⟨g, -, heq⟩ | ⟨-, -, heq⟩ | ⟨c, -, hinit, heq⟩
  · rw [heq]
    exact h
  · rwa [heq]
  obtain ⟨-, -, -, -, hout⟩ := wpaGroupInit_some hinit
  rw [heq]
  exact h.quiet hout

theorem exec_asking {fuel : ℕ} {W W' : Auth} {e : Event} (hrest : Resting W)
    (hs : exec cr env fuel W e = some W') : Asking W'.out := by
  have h0 : Resting W.start ∧ Asking W.start.out :=
    ⟨⟨hrest.noRekey, hrest.idle⟩, fun o ho => by simp [Auth.start] at ho⟩
  have hclosed := @asking_closed cr env
  rw [exec] at hs
  split at hs
  · cases e with
    | receive i data =>
      refine (wpaReceive_closed hclosed h0 i data ?_ ?_ hs).2
      · exact fun f _ _ _ V _ hV => ⟨modSta_resting hV.1 i _ fun _ => rfl, hV.2⟩
      · exact fun f _ _ _ hV V' hV' => wpaRekeyGtk_asking hV.1 hV.2 hV'
    | rekeyPtk i =>
      simp only [run, wpaRekeyPtk] at hs
      refine (hclosed.step fuel _ i W' ⟨?_, ?_⟩ hs).2
      · exact modSta_resting h0.1 i _ fun _ => rfl
      · exact h0.2
    | rekeyGtk => exact (wpaRekeyGtk_asking h0.1 h0.2 hs).2
    | assocCb i between last =>
      refine (handleAssocCb_closed hclosed h0 i between last ?_ hs).2
      intro V V' _ hV hV'
      refine foldlM_rule (I := fun V => Resting V ∧ Asking V.out) (fun U x U' hU hU' => ?_) between
        hV hV'
      cases x with
      | bindVlan vlanId =>
        exact Option.some.inj hU' ▸
          ⟨wpaAuthStaSetVlan_resting hU.1 i vlanId, wpaAuthStaSetVlan_asking hU.2 i vlanId⟩
      | reauthEapol => exact wpaAuthSmEvent_closed hclosed hU i .reauthEapol hU'
    | staSetVlan i vlanId =>
      exact Option.some.inj hs ▸ wpaAuthStaSetVlan_asking h0.2 i vlanId
    | _ => exact (run_closed hclosed rfl h0 hs).2
  · simp at hs

end Step

-- In every run, the frames over which the Authenticator computes a MIC ask for an answer or are SMK
-- messages.
theorem run_asking {cr : Crypto} {tr : List (Auth × Event × Auth)} {W : Auth} (h : Run cr tr W) :
    ∀ x ∈ tr, Asking x.2.2.out := by
  induction h with
  | init h => simp
  | step h hs ih =>
    obtain ⟨env, fuel, hs⟩ := hs
    intro x hx
    rcases List.mem_cons.mp hx with rfl | hx
    · exact exec_asking (run_resting h) hs
    · exact ih x hx

end WpaSupplicant.Authenticator
