import WpaSupplicant.Authenticator.FreshNonce
import WpaSupplicant.Authenticator.PortControl

namespace WpaSupplicant.Authenticator

open Lib.Octets Lib.Window Lib.Effect Lib.Loop KeyData

-- Message 1/4 to a station: the frame of the pairwise handshake that asks for an answer and has no MIC
def IsMessage1 (addr : Addr) : Out → Prop
  | .sendEapol a f _ =>
    a = addr ∧ f.keyInfo.keyType = true ∧ f.keyInfo.ack = true ∧ f.keyInfo.mic = false
  | _ => False

def Message1First (addr : Addr) (out : List Out) : Prop :=
  ∃ l o r, out = l ++ o :: r ∧ IsMessage1 addr o ∧ .disconnect addr ∉ l

def RekeyAsked (cr : Crypto) (W : Auth) (e : Event) (i : ℕ) (sm : Sta) : Prop :=
  W.sta i = some sm ∧ sm.ptkState = .ptkinitdone ∧ e.asksPtk cr W i

-- Every such request of a run leads to a message 1/4 first.
def RekeysStart (cr : Crypto) (tr : List (Auth × Event × Auth)) : Prop :=
  ∀ x ∈ tr, ∀ i sm, RekeyAsked cr x.1 x.2.1 i sm → Message1First sm.addr x.2.2.out

-- The station has not used up its transmissions, and there is memory for what the event needs.
def BudgetLeft (cr : Crypto) (x : Auth × Event × Auth) : Prop :=
  ∀ i sm, RekeyAsked cr x.1 x.2.1 i sm → sm.timeoutCtr < pairwiseUpdateCount ∧
    ∃ env fuel, (∀ t, env.alloc t = true) ∧ exec cr env fuel x.1 x.2.1 = some x.2.2

section Message1

variable (cr : Crypto) (env : Env) (ap : Ap)

theorem sendKeyInfo_message1 (sm : Sta) :
    let k := sendKeyInfo sm (KeyInfo.ackBit ||| KeyInfo.keyTypeBit) 0 false
    k.keyType = true ∧ k.ack = true ∧ k.mic = false := by
  have hversion : sendVersion sm = KeyInfo.typeAes128Cmac ∨ sendVersion sm = KeyInfo.typeHmacSha1Aes ∨
      sendVersion sm = KeyInfo.typeHmacMd5Rc4 := by
    rw [sendVersion]
    split
    · exact .inl rfl
    split
    · exact .inr (.inl rfl)
    · exact .inr (.inr rfl)
  have hindex : (if sm.wpa = some .rsn then (0 : KeyInfo) else BitVec.ofNat 16 (0 * 16)) = 0 := by
    split <;> rfl
  simp only [sendKeyInfo, hindex, Bool.false_and, KeyInfo.flag, Bool.false_eq_true, if_false]
  rcases hversion with h | h | h
  all_goals
    rw [h]
    decide

theorem wpaSendEapol_plain (keyInfo : KeyInfo) (nonce : Option Nonce) (kde : Option Octets) (c : Ctx)
    (hmem : env.alloc c.tick = true) (hmic : (sendKeyInfo c.sm keyInfo 0 false).mic = false) :
    ∃ frame, (wpaSendEapol cr env ap keyInfo none nonce kde 0 false c).out =
        c.out ++ [.setEapol c.sm.addr .incEapolFramesTx true, .sendEapol c.sm.addr frame c.sm.pairwiseSet] ∧
      frame.keyInfo = sendKeyInfo c.sm keyInfo 0 false := by
  have hdata (ver : KeyInfo) (kek iv : BitVec 128) : sendKeyData cr ver kek iv false kde = some (kde.getD []) := by
    cases kde <;> rfl
  refine ⟨buildEapolKey ap (nextReplayCounter c.ask).sm keyInfo none nonce 0 false
    (lastReplayCounter (nextReplayCounter c.ask).sm) 0 (kde.getD []), ?_, rfl⟩
  simp only [wpaSendEapol, wpaSendEapolRaw, Ctx.ask, hmem, Bool.not_true, Bool.false_eq_true, if_false,
    fillAndTransmit, Bool.false_and, Bool.not_false, Bool.true_or, hdata, sendKeyIv, transmit_eq, transmitOut]
  rw [if_neg]
  · rfl
  · rw [Bool.not_eq_true]
    exact hmic

theorem ptkPtkstart_out (c : Ctx) (hctr : c.sm.timeoutCtr < pairwiseUpdateCount)
    (hmem : env.alloc c.tick = true) :
    ∃ o, (ptkPtkstart cr env ap c).out =
      c.out ++ [.setEapol c.sm.addr .incEapolFramesTx true, o] ∧ IsMessage1 c.sm.addr o := by
  have hnot : ¬pairwiseUpdateCount < c.sm.timeoutCtr + 1 := by omega
  obtain ⟨sm, hsm⟩ : ∃ sm : Sta, sm = { c.sm with
    ptkState := .ptkstart
    changed := true
    ptkRequest := false
    timeoutEvt := false
    timeoutCtr := c.sm.timeoutCtr + 1 } := ⟨_, rfl⟩
  have heq : ptkPtkstart cr env ap c = wpaSendEapol cr env ap (KeyInfo.ackBit ||| KeyInfo.keyTypeBit) none
      (some sm.anonce) (msg1Kde cr ap sm) 0 false ⟨sm, c.grp, c.tick, c.out⟩ := by
    rw [hsm]
    exact if_neg hnot
  have haddr : sm.addr = c.sm.addr := by rw [hsm]
  obtain ⟨hkey, hack, hmic⟩ := sendKeyInfo_message1 sm
  obtain ⟨frame, hout, hinfo⟩ := wpaSendEapol_plain cr env ap (KeyInfo.ackBit ||| KeyInfo.keyTypeBit)
    (some sm.anonce) (msg1Kde cr ap sm) ⟨sm, c.grp, c.tick, c.out⟩ hmem hmic
  refine ⟨.sendEapol sm.addr frame sm.pairwiseSet, ?_, haddr, ?_⟩
  · rw [heq, ← haddr]
    exact hout
  · rw [hinfo]
    exact ⟨hkey, hack, hmic⟩

end Message1

section Events

variable {cr : Crypto} {env : Env} {ap : Ap} {D : ℕ → Evidence} {E : Evidence} {U V W W' : Auth} {i : ℕ} {sm : Sta}
  {f : EapolKey} {fuel : ℕ}

structure Asked (E : Evidence) (sm : Sta) : Prop where
  stepping : Stepping E sm
  disconnect : sm.disconnect = false
  deauthentication : sm.deauthenticationRequest = false
  authentication : sm.authenticationRequest = false
  reAuthentication : sm.reAuthenticationRequest = false
  request : sm.ptkRequest = true

theorem Asked.ptkStep {c : Ctx} (h : Asked E c.sm) :
    Authenticator.ptkStep cr env ap c = ptkPtkstart cr env ap c := by
  simp only [Authenticator.ptkStep, h.stepping.init, h.disconnect, h.deauthentication, h.authentication,
    h.reAuthentication, h.request, Bool.false_eq_true, if_false, if_true]

-- The first round of the loop serves the request, and nothing in it comes before message 1/4.
theorem Asked.step (h : Asked E sm) (hrest : Resting U) (hi : U.sta i = some sm)
    (hctr : sm.timeoutCtr < pairwiseUpdateCount) (hmem : ∀ t, env.alloc t = true)
    (hout : .disconnect sm.addr ∉ U.out) (hs : wpaSmStep cr env fuel U i = some W') :
    Message1First sm.addr W'.out := by
  let c : Ctx := U.unmarked.ctx (sm.looping true)
  have hasked : Asked E c.unmarked.sm :=
    ⟨h.stepping.congr rfl, h.disconnect, h.deauthentication, h.authentication, h.reAuthentication, h.request⟩
  have hround : roundFn cr env U.ap c = ptkGroupStep cr env U.ap (ptkPtkstart cr env U.ap c.unmarked) := by
    rw [roundFn, hasked.ptkStep]
  have hgoes := ptkGroupStep_goes cr env U.ap (ptkPtkstart cr env U.ap c.unmarked)
  have hentered := ptkPtkstart_entered cr env U.ap c.unmarked
  have hchanged : (roundFn cr env U.ap c).sm.changed = true := by
    have hinit : (ptkPtkstart cr env U.ap c.unmarked).sm.init = false :=
      (congrArg StaFixed.init (ptkPtkstart_goes cr env U.ap (.refl c.unmarked)).rel.1.fixed).trans h.stepping.init
    rw [hround]
    exact hgoes.rel.1.changed hinit (hentered.2 h.stepping.init)
  have hstepping : Stepping E (roundFn cr env U.ap c).sm := (roundFn_stepping (h.stepping.congr rfl)).1
  obtain ⟨-, -, -, l', hl', -⟩ := wpaSmStep_first hrest hi hstepping hchanged hs
  obtain ⟨l, hl, -⟩ := hgoes.emitted
  obtain ⟨o, ho, hmsg⟩ := ptkPtkstart_out cr env U.ap c.unmarked hctr (hmem _)
  refine ⟨U.out ++ [.setEapol sm.addr .incEapolFramesTx true], o, l ++ l', ?_, hmsg, ?_⟩
  · rw [hl', hround, hl, ho]
    simp only [List.append_assoc, List.cons_append, List.nil_append]
    rfl
  · simpa using hout

theorem wpaGtkUpdate_out (c : Ctx) : (wpaGtkUpdate cr env ap c).out = c.out := by
  simp only [wpaGtkUpdate]
  split
  · simp only [Ctx.ask]
  · simp only [Ctx.ask]

theorem wpaGtkRekeyOnce_disconnect {c : Ctx} {a : Addr} (h : .disconnect a ∉ c.out) :
    .disconnect a ∉ (wpaGtkRekeyOnce cr env ap c).out := by
  have hupdate := @wpaGtkUpdate_out cr env ap { c with grp := { c.grp with
    gn := c.grp.gn.other, gnIgtk := c.grp.gnIgtk.other } }
  simp only [wpaGtkRekeyOnce, wpaGroupConfigGroupKeys]
  generalize wpaGtkUpdate cr env ap _ = c1 at hupdate ⊢
  split
  · simpa [Ctx.emit, Ctx.ask, hupdate] using h
  · simpa [Ctx.emit, Ctx.ask, hupdate] using h

theorem wpaGtkRekey_disconnect {a : Addr} (h : .disconnect a ∉ W.out) : .disconnect a ∉ (wpaGtkRekey cr env W).out :=
  wpaGtkRekeyOnce_disconnect (wpaGtkRekeyOnce_disconnect h)

-- What `wpa_receive` does with a frame that asks for a new PTK, before the machines run
theorem receiveAct_asked {go : Bool} (hask : asksNewPtk f = true)
    (hact : receiveAct cr env fuel W i f = some (V, go)) :
    go = true ∧ ∃ U : Auth, V = U.modSta i wpaRequestNewPtk ∧ U.sta = W.sta ∧
      ∀ a, .disconnect a ∉ W.out → .disconnect a ∉ U.out := by
  simp only [asksNewPtk, Bool.and_eq_true, Bool.or_eq_true, decide_eq_true_eq] at hask
  obtain ⟨⟨hreq, hmsg⟩, hkind⟩ := hask
  rw [receiveAct, if_pos hreq, receiveRequest, if_neg hmsg] at hact
  by_cases herror : f.keyInfo.error = true
  · rw [if_pos herror] at hact
    obtain ⟨rfl, rfl⟩ := Prod.mk.inj (Option.some.inj hact)
    refine ⟨rfl, ?_⟩
    simp only [wpaReceiveErrorReport]
    cases hi : W.sta i with
    | none => exact ⟨W, (Auth.modSta_none hi _).symm, rfl, fun _ h => h⟩
    | some sm =>
      dsimp only
      have hreport (a : Addr) (h : .disconnect a ∉ W.out) :
          .disconnect a ∉ W.out ++ [.micFailureReport sm.addr] := by simpa using h
      refine ⟨_, rfl, ?_⟩
      split_ifs
      · exact ⟨rfl, fun _ h => h⟩
      · exact ⟨(wpaGtkRekey_move _).1.sta, fun a h => wpaGtkRekey_disconnect (hreport a h)⟩
      · exact ⟨rfl, hreport⟩
      · exact ⟨rfl, fun _ h => h⟩
      · exact ⟨(wpaGtkRekey_move _).1.sta, fun a h => wpaGtkRekey_disconnect (hreport a h)⟩
      · exact ⟨rfl, hreport⟩
  · rw [if_neg herror, if_pos (hkind.resolve_left herror)] at hact
    obtain ⟨rfl, rfl⟩ := Prod.mk.inj (Option.some.inj hact)
    exact ⟨rfl, W, rfl, rfl, fun _ h => h⟩

theorem timer_message1 (hrest : Resting W) (h : Port D W) (hi : W.sta i = some sm)
    (hctr : sm.timeoutCtr < pairwiseUpdateCount) (hmem : ∀ t, env.alloc t = true) (hout : .disconnect sm.addr ∉ W.out)
    (hs : wpaRekeyPtk cr env fuel W i = some W') : Message1First sm.addr W'.out := by
  have hw := h.sta i sm hi
  have hun := hw.stepping.unframed
  have hdrop : Stepping (D i).noPtk (wpaRequestNewPtk { sm with rekeyTimer := false }) :=
    Unframed.drop ⟨hun.init, hun.frame, hun.ie⟩ rfl
  have hasked : Asked (D i) (wpaRequestNewPtk { sm with rekeyTimer := false }) :=
    ⟨hdrop.mono (D i).noPtk_le, hw.disconnect, hw.deauthentication, hw.authentication, hw.reAuthentication, rfl⟩
  refine hasked.step (modSta_resting hrest i (fun sm => wpaRequestNewPtk { sm with rekeyTimer := false })
    fun _ => rfl) ?_ hctr hmem hout hs
  rw [Auth.modSta_some hi]
  exact Function.update_self ..

theorem frame_message1 (hrest : Resting W) (h : Port D W) (hi : W.sta i = some sm)
    (hctr : sm.timeoutCtr < pairwiseUpdateCount) (hmem : ∀ t, env.alloc t = true) (hout : .disconnect sm.addr ∉ W.out)
    (hacc : acceptedBy cr W i f = true) (hask : asksNewPtk f = true) (hrec : Received cr env fuel W i f W') :
    Message1First sm.addr W'.out := by
  obtain ⟨sm', hi', haccepted, hchecked⟩ := acceptedBy_true hacc
  obtain rfl := Option.some.inj (hi'.symm.trans hi)
  have hreq : f.keyInfo.request = true := by
    simp only [asksNewPtk, Bool.and_eq_true] at hask
    exact hask.1.1
  have hsta (V U : Auth) (hV : V = U.modSta i wpaRequestNewPtk) (hU : U.sta = (checked cr W i f).sta) :
      V.sta i = some (wpaRequestNewPtk (sm'.micChecked.counted f)) := by
    have hiU : U.sta i = some (sm'.micChecked.counted f) := by
      rw [hU, hchecked, Auth.modSta_some hi]
      exact Function.update_self ..
    rw [hV, Auth.modSta_some hiU]
    exact Function.update_self ..
  have haddr : (sm'.micChecked.counted f).addr = sm'.addr ∧
      (sm'.micChecked.counted f).timeoutCtr = sm'.timeoutCtr := by
    rw [Sta.counted, Sta.micChecked]
    split_ifs <;> exact ⟨rfl, rfl⟩
  have hout1 : .disconnect sm'.addr ∉ (checked cr W i f).out := by
    rw [hchecked]
    exact hout
  cases hrec with
  | rejected hrejected =>
    rw [hacc] at hrejected
    cases hrejected
  | handled _ hact =>
    have hgo := (receiveAct_asked hask hact).1
    cases hgo
  | @noMemory V _ _ hact hpost =>
    obtain ⟨-, U, hV, hU, -⟩ := receiveAct_asked hask hact
    have hfalse : (receivePost env f (V.ctx (wpaRequestNewPtk (sm'.micChecked.counted f)))).2 = false := by
      have := congrArg Prod.snd hpost
      rwa [withStaCheck, hsta V U hV hU] at this
    rw [receivePost, hmem] at hfalse
    cases hfalse
  | @stepped V U' _ _ hact hpost hstep =>
    obtain ⟨-, U, hV, hU, hdisc⟩ := receiveAct_asked hask hact
    obtain ⟨hrestV, hportV⟩ := receiveAct_port hrest h hacc hact
    have hiV := hsta V U hV hU
    have hw := hportV.sta i _ hiV
    rcases withStaCheck_post hpost hiV with ⟨hok, -⟩ | ⟨-, rfl⟩
    · cases hok
    have hasked : Asked (D i) ((wpaRequestNewPtk (sm'.micChecked.counted f)).posted f) :=
      ⟨hw.posted (.inl hreq), hw.disconnect, hw.deauthentication, hw.authentication, hw.reAuthentication, rfl⟩
    have hrestU := put_resting hrestV hiV
      (@ask_harmless (V.ctx (wpaRequestNewPtk (sm'.micChecked.counted f)))
        ((wpaRequestNewPtk (sm'.micChecked.counted f)).posted f) rfl)
    rw [← haddr.2] at hctr
    have hdiscU := hdisc _ hout1
    rw [← haddr.1] at hdiscU ⊢
    rw [hV] at hstep hrestU
    exact hasked.step hrestU (Function.update_self ..) hctr hmem hdiscU hstep

theorem exec_message1 {e : Event} (hrest : Resting W) (h : Port D W.start) (hasked : RekeyAsked cr W e i sm)
    (hctr : sm.timeoutCtr < pairwiseUpdateCount) (hmem : ∀ t, env.alloc t = true)
    (hs : exec cr env fuel W e = some W') : Message1First sm.addr W'.out := by
  obtain ⟨hi, -, hask⟩ := hasked
  have hrest0 : Resting W.start := ⟨hrest.noRekey, hrest.idle⟩
  have hout : .disconnect sm.addr ∉ W.start.out := List.not_mem_nil
  rw [exec] at hs
  split at hs
  · cases e with
    | rekeyPtk j =>
      obtain rfl : j = i := hask
      exact timer_message1 hrest0 h hi hctr hmem hout hs
    | receive j data =>
      obtain ⟨rfl, hconf, f, hf, hacc, hnew⟩ := hask
      exact frame_message1 hrest0 h hi hctr hmem hout hacc hnew (wpaReceive_frame hconf hf hs)
    | _ => exact hask.elim
  · cases hs

end Events

-- In every run in which a new PTK is only asked for while transmissions are left, each request leads to a message 1/4
-- before the station can be disconnected.
theorem rekeys_start {cr : Crypto} {tr : List (Auth × Event × Auth)} {W : Auth} (h : Run cr tr W)
    (hbudget : ∀ x ∈ tr, BudgetLeft cr x) : RekeysStart cr tr := by
  induction h with
  | init h => exact fun x hx => absurd hx List.not_mem_nil
  | @step tr W W' e h hs ih =>
    intro x hx i sm hasked
    rcases List.mem_cons.mp hx with rfl | hx
    · obtain ⟨hctr, env, fuel, hmem, hexec⟩ := hbudget _ List.mem_cons_self i sm hasked
      exact exec_message1 (run_resting h) (run_waits h) hasked hctr hmem hexec
    · exact ih (fun y hy => hbudget y (List.mem_cons_of_mem _ hy)) x hx i sm hasked

-- The handshake of the sample station took one message 3/4, and the timer asks for a new PTK.
set_option maxRecDepth 100000 in
theorem rekeys_start_sample :
    ∃ r, sampleRun (sampleAssoc ++ [sampleMsg2 1, sampleMsg4 2, .rekeyPtk 0]) = some r ∧
      (r.1.map fun x => x.2.1).head? = some (.rekeyPtk 0) ∧ RekeysStart .transparent r.1 := by
  have hsome : ((sampleRun (sampleAssoc ++ [sampleMsg2 1, sampleMsg4 2, .rekeyPtk 0])).map fun r =>
      ((r.1.map fun x => x.2.1).head?, r.1.all fun x => (x.1.sta 0).all fun sm =>
        decide (sm.timeoutCtr < pairwiseUpdateCount))) = some (some (.rekeyPtk 0), true) := by
    rfl
  obtain ⟨r, hr, heq⟩ := Option.map_eq_some_iff.mp hsome
  obtain ⟨hhead, hctr⟩ := Prod.mk.inj heq
  refine ⟨r, hr, hhead, rekeys_start (run_sampleRun hr) fun x hx i sm hasked => ?_⟩
  refine ⟨?_, .benign, 20, fun _ => rfl, sampleRun_steps hr x hx⟩
  obtain ⟨hi, -, hask⟩ := hasked
  have hmem := sampleRun_events hr x hx
  simp only [sampleAssoc, sampleMsg2, sampleMsg4, List.cons_append, List.nil_append, List.mem_cons,
    List.not_mem_nil, or_false] at hmem
  rcases hmem with h | h | h | h | h | h
  all_goals rw [h] at hask
  · exact hask.elim
  · exact hask.elim
  · exact hask.elim
  · obtain ⟨-, -, f, hf, -, hnew⟩ := hask
    rw [EapolKey.ofOctets?_toOctets] at hf
    obtain rfl := Option.some.inj hf
    exact absurd hnew (by decide)
  · obtain ⟨-, -, f, hf, -, hnew⟩ := hask
    rw [EapolKey.ofOctets?_toOctets] at hf
    obtain rfl := Option.some.inj hf
    exact absurd hnew (by decide)
  · obtain rfl : 0 = i := hask
    have hall := List.all_eq_true.mp hctr x hx
    rw [hi] at hall
    exact of_decide_eq_true hall

-- The handshake took four messages 3/4: the station is disconnected without any frame when its timer asks for a new
-- PTK.
set_option maxRecDepth 100000 in
theorem rekey_without_message1 :
    ∃ r, sampleRun (sampleAssoc ++ [sampleMsg2 1, .sendEapolTimeout 0, .sendEapolTimeout 0,
        .sendEapolTimeout 0, sampleMsg4 5, .rekeyPtk 0]) = some r ∧ Run .transparent r.1 r.2 ∧
      (∃ V V', (V, .rekeyPtk 0, V') ∈ r.1 ∧ .disconnect 2 ∈ V'.out ∧ sentFrames V'.out = []) ∧
      ¬ RekeysStart .transparent r.1 := by
  have hsome : ((sampleRun (sampleAssoc ++ [sampleMsg2 1, .sendEapolTimeout 0, .sendEapolTimeout 0,
      .sendEapolTimeout 0, sampleMsg4 5, .rekeyPtk 0])).bind fun r => r.1.head?.map fun x =>
        (x.2.1, (x.1.sta 0).map fun sm => (sm.ptkState, sm.addr), decide (.disconnect 2 ∈ x.2.2.out),
          sentFrames x.2.2.out)) =
      some (.rekeyPtk 0, some (.ptkinitdone, 2), true, []) := by
    rfl
  obtain ⟨r, hr, hhead⟩ := Option.bind_eq_some_iff.mp hsome
  obtain ⟨⟨V, e, V'⟩, hx, heq⟩ := Option.map_eq_some_iff.mp hhead
  obtain ⟨hevent, hrest⟩ := Prod.mk.inj heq
  obtain ⟨hsta, hrest⟩ := Prod.mk.inj hrest
  obtain ⟨hdisc, hsent⟩ := Prod.mk.inj hrest
  obtain ⟨sm, hi, hsm⟩ := Option.map_eq_some_iff.mp hsta
  obtain ⟨hstate, haddr⟩ := Prod.mk.inj hsm
  obtain rfl : e = .rekeyPtk 0 := hevent
  have hmem : (V, .rekeyPtk 0, V') ∈ r.1 := List.mem_of_head? hx
  refine ⟨r, hr, run_sampleRun hr, ⟨V, V', hmem, of_decide_eq_true hdisc, hsent⟩, fun hall => ?_⟩
  obtain ⟨l, o, rest, hout, hmsg, -⟩ := hall _ hmem 0 sm ⟨hi, hstate, rfl⟩
  cases o with
  | sendEapol a f encrypt =>
    have hf : f ∈ sentFrames V'.out := by
      have hframe : Out.sendEapol a f encrypt ∈ V'.out := by
        rw [hout]
        exact List.mem_append_right _ List.mem_cons_self
      exact List.mem_filterMap.mpr ⟨_, hframe, rfl⟩
    rw [hsent] at hf
    cases hf
  | _ => exact hmsg.elim

end WpaSupplicant.Authenticator
