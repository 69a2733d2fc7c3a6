import WpaSupplicant.Authenticator.Step.Lemmas
import WpaSupplicant.Authenticator.Receive.Lemmas
import WpaSupplicant.Authenticator.Events

namespace WpaSupplicant.Authenticator

open Lib.Octets Lib.Window Lib.Effect Lib.Loop KeyData

-- A function of a station that leaves the pairwise handshake alone: its state, the ANonce, and
-- whether a new PTK is asked for
structure Harmless (c c' : Ctx) : Prop where
  group : c'.sm.group = c.sm.group
  inStepLoop : c'.sm.inStepLoop = c.sm.inStepLoop
  ptkState : c'.sm.ptkState = c.sm.ptkState
  nonce : c'.sm.nonce = c.sm.nonce
  request : c'.sm.ptkRequest = true → c.sm.ptkRequest = true
  moves : Moves c.sm c.grp c'.sm c'.grp
  emitted : ∃ l, c'.out = c.out ++ l ∧ ∀ o ∈ l, Quiet o

namespace Harmless

variable {c c' : Ctx}

theorem of_goes (h : Goes c c') (hst : c'.sm.ptkState = c.sm.ptkState) : Harmless c c' :=
  ⟨congrArg StaFixed.group h.rel.1.fixed, congrArg StaFixed.inStepLoop h.rel.1.fixed, hst,
    h.rel.1.nonce, h.rel.1.request, h.rel.2, h.emitted⟩

theorem trans {x y z : Ctx} (h : Harmless x y) (h' : Harmless y z) : Harmless x z := by
  obtain ⟨l, hl, hall⟩ := h.emitted
  obtain ⟨l', hl', hall'⟩ := h'.emitted
  refine ⟨h'.group.trans h.group, h'.inStepLoop.trans h.inStepLoop, h'.ptkState.trans h.ptkState,
    h'.nonce.trans h.nonce, h.request ∘ h'.request, h.moves.trans h'.moves, l ++ l',
    by rw [hl', hl, List.append_assoc], ?_⟩
  intro o ho
  rcases List.mem_append.mp ho with ho | ho
  · exact hall o ho
  · exact hall' o ho

-- The fields of a station that `Harmless` speaks of
structure Fields where
  group : ℕ
  inStepLoop : Bool
  ptkState : PtkState
  nonce : StaNonce
  ptkRequest : Bool
  pending : Bool

end Harmless

def Sta.fields (sm : Sta) : Harmless.Fields :=
  ⟨sm.group, sm.inStepLoop, sm.ptkState, sm.nonce, sm.ptkRequest, sm.gUpdateStationKeys⟩

theorem Harmless.of_fields {c : Ctx} (sm : Sta) (h : sm.fields = c.sm.fields) :
    Harmless c { c with sm := sm } where
  group := congrArg Fields.group h
  inStepLoop := congrArg Fields.inStepLoop h
  ptkState := congrArg Fields.ptkState h
  nonce := congrArg Fields.nonce h
  request := (congrArg Fields.ptkRequest h).symm.trans
  moves := ⟨rfl, by rw [Sta.pendingUpdate, Sta.pendingUpdate,
    show sm.gUpdateStationKeys = c.sm.gUpdateStationKeys from congrArg Fields.pending h], .refl _,
    (congrArg Fields.pending h).symm.trans⟩
  emitted := ⟨[], by simp, by simp⟩

theorem Harmless.refl (c : Ctx) : Harmless c c := .of_fields c.sm rfl

-- An invariant of the Authenticator that does not depend on the keys of the groups and on the
-- frames that are sent
structure Steady (cr : Crypto) (env : Env) (I : Auth → Prop) : Prop where
  groups : ∀ W W', GroupsMove W W' →
    (∀ g, (W'.group g).fixed = (W.group g).fixed ∧
      (W'.group g).gKeyDoneStations = (W.group g).gKeyDoneStations) → I W → I W'
  send : ∀ W i keyInfo nonce kde encr, keyInfo.ack = true ∨ keyInfo.smkMessage = true → I W →
    I (sendTo cr env W i keyInfo nonce kde encr)

-- An invariant that all functions keep but those that ask for a new PTK or a new group key, or
-- move a station to another group
structure Closed (cr : Crypto) (env : Env) (I : Auth → Prop) : Prop where
  groups : ∀ W W', GroupsMove W W' →
    (∀ g, (W'.group g).fixed = (W.group g).fixed ∧
      (W'.group g).gKeyDoneStations = (W.group g).gKeyDoneStations) → I W → I W'
  fn : ∀ W i sm c, I W → W.sta i = some sm → Harmless (W.ctx sm) c → I (W.put i sm.group c)
  step : ∀ fuel W i W', I W → wpaSmStep cr env fuel W i = some W' → I W'
  join : ∀ W i addr pos, I W → W.sta i = none → I (wpaAuthStaInit W i addr pos)
  leave : ∀ W i, I W → I (wpaAuthStaDeinit W i)

section Closed

variable {cr : Crypto} {env : Env} {I : Auth → Prop}

theorem modSta_eq_put {W : Auth} {i : ℕ} {sm : Sta} (hi : W.sta i = some sm) (f : Sta → Sta) :
    W.modSta i f = W.put i sm.group { W.ctx sm with sm := f sm } := by
  rw [Auth.modSta_some hi, Auth.put]
  simp [Auth.ctx]

theorem Closed.withSta (h : Closed cr env I) {W : Auth} (hI : I W) (i : ℕ) (f : Ctx → Ctx)
    (hf : ∀ c, Harmless c (f c)) : I (W.withSta i f) := by
  cases hi : W.sta i with
  | none => rwa [Auth.withSta_none hi]
  | some sm =>
    rw [Auth.withSta_some hi]
    exact h.fn W i sm _ hI hi (hf _)

theorem Closed.modSta (h : Closed cr env I) {W : Auth} (hI : I W) (i : ℕ) (f : Sta → Sta)
    (hf : ∀ sm, (f sm).fields = sm.fields) : I (W.modSta i f) := by
  cases hi : W.sta i with
  | none => rwa [Auth.modSta_none hi]
  | some sm =>
    rw [modSta_eq_put hi]
    exact h.fn W i sm _ hI hi (.of_fields _ (hf sm))

theorem wpaSendEapolRaw_harmless (ap : Ap) (keyInfo : KeyInfo) (nonce : Option Nonce)
    (kde : Octets) (encr : Bool) (hbits : keyInfo.ack = true ∨ keyInfo.smkMessage = true) (c : Ctx) :
    Harmless c (wpaSendEapolRaw cr env ap keyInfo none nonce (some kde) 0 encr c) := by
  refine .of_goes (wpaSendEapolRaw_goes cr env ap keyInfo _ _ _ _ _ (.refl c) hbits) ?_
  rcases wpaSendEapolRaw_cases cr env ap keyInfo none nonce (some kde) 0 encr c with
    ⟨-, heq⟩ | ⟨-, grp, tick, out, heq, -, -⟩
  · rw [heq]
    rfl
  · rw [heq]
    rfl

theorem Closed.steady (h : Closed cr env I) : Steady cr env I where
  groups := h.groups
  send W j keyInfo nonce kde encr hbits hI :=
    h.withSta hI j _ (wpaSendEapolRaw_harmless W.ap keyInfo nonce kde encr hbits)

theorem Steady.tick (h : Steady cr env I) {W : Auth} (hI : I W) (t : ℕ) : I { W with tick := t } :=
  h.groups W _ ⟨rfl, rfl, rfl, rfl, fun _ => .refl _, [], by simp, by simp⟩
    (fun _ => ⟨rfl, rfl⟩) hI

theorem wpaSmkSendError_steady (h : Steady cr env I) {W : Auth} (hI : I W) (j : ℕ) (peer : Addr)
    (mui errorType : BitVec 16) : I (wpaSmkSendError cr env W j peer mui errorType) :=
  h.send W j _ _ _ _ (.inr (by decide)) hI

theorem wpaSmkM1_steady (h : Steady cr env I) {W : Auth} (hI : I W) (i : ℕ) (f : EapolKey) :
    I (wpaSmkM1 cr env W i f) := by
  simp only [wpaSmkM1]
  split
  · split
    · exact hI
    split
    · exact wpaSmkSendError_steady h hI _ _ _ _
    split
    · exact h.tick hI _
    · exact h.send _ _ _ _ _ _ (.inr (by decide)) (h.tick hI _)
  · exact hI

theorem wpaSendSmkM4_steady (h : Steady cr env I) {W : Auth} (hI : I W) (i : ℕ) (f : EapolKey)
    (initiator : Addr) (inonce smk : Octets) :
    I (wpaSendSmkM4 cr env W i f initiator inonce smk) := by
  simp only [wpaSendSmkM4]
  split
  · exact h.tick hI _
  · exact h.send _ _ _ _ _ _ (.inr (by decide)) (h.tick hI _)

theorem wpaSendSmkM5_steady (h : Steady cr env I) {W : Auth} (hI : I W) (j : ℕ) (f : EapolKey)
    (rsnIe inonce smk : Octets) (peer : Addr) :
    I (wpaSendSmkM5 cr env W j f rsnIe inonce smk peer) := by
  simp only [wpaSendSmkM5]
  split
  · exact h.tick hI _
  · exact h.send _ _ _ _ _ _ (.inr (by decide)) (h.tick hI _)

theorem wpaSmkM3_steady (h : Steady cr env I) {W : Auth} (hI : I W) (i : ℕ) (f : EapolKey) :
    I (wpaSmkM3 cr env W i f) := by
  simp only [wpaSmkM3]
  split
  · split
    · exact hI
    split
    · exact wpaSmkSendError_steady h hI _ _ _ _
    split
    · exact h.tick hI _
    · exact wpaSendSmkM5_steady h (wpaSendSmkM4_steady h (h.tick hI _) _ _ _ _ _) _ _ _ _ _ _
  · exact hI

theorem wpaSmkError_steady (h : Steady cr env I) {W : Auth} (hI : I W) (i : ℕ) (f : EapolKey) :
    I (wpaSmkError cr env W i f) := by
  simp only [wpaSmkError]
  split
  · split
    · exact hI
    split
    · exact hI
    · exact wpaSmkSendError_steady h hI _ _ _ _
  · exact hI

theorem wpaGtkRekeyOnce_goes (ap : Ap) {a c : Ctx} (h : Goes a c) :
    Goes a (wpaGtkRekeyOnce cr env ap c) := by
  rw [wpaGtkRekeyOnce]
  exact wpaGroupConfigGroupKeys_goes ap (wpaGtkUpdate_goes cr env ap
    (h.grp _ rfl rfl (.inr ⟨rfl, BitVec.le_refl _⟩)))

theorem wpaGtkRekeyOnce_sm (ap : Ap) (c : Ctx) : (wpaGtkRekeyOnce cr env ap c).sm = c.sm := by
  rw [wpaGtkRekeyOnce, wpaGroupConfigGroupKeys_sm, wpaGtkUpdate_sm]

theorem wpaGtkRekey_move (W : Auth) :
    GroupsMove W (wpaGtkRekey cr env W) ∧
      ∀ g, ((wpaGtkRekey cr env W).group g).fixed = (W.group g).fixed ∧
        ((wpaGtkRekey cr env W).group g).gKeyDoneStations = (W.group g).gKeyDoneStations := by
  have hgoes := @wpaGtkRekeyOnce_goes cr env W.ap _ _
    (@wpaGtkRekeyOnce_goes cr env W.ap _ _ (.refl (W.groupCtx 0)))
  have hsm : (wpaGtkRekeyOnce cr env W.ap (wpaGtkRekeyOnce cr env W.ap (W.groupCtx 0))).sm =
      (W.groupCtx 0).sm := by
    rw [wpaGtkRekeyOnce_sm, wpaGtkRekeyOnce_sm]
  have hcount := hgoes.rel.2.count
  rw [hsm] at hcount
  refine ⟨withGroup_move W 0 _ hgoes.rel.2.clock hgoes.emitted, fun g => ?_⟩
  by_cases hg : g = 0
  · subst hg
    simp only [wpaGtkRekey, Auth.withGroup, Function.update_self]
    exact ⟨hgoes.rel.2.fixed, sub_left_injective hcount⟩
  · simp [wpaGtkRekey, Auth.withGroup, hg]

theorem wpaGtkRekey_steady (h : Steady cr env I) {W : Auth} (hI : I W) :
    I (wpaGtkRekey cr env W) :=
  h.groups W _ (wpaGtkRekey_move W).1 (wpaGtkRekey_move W).2 hI

theorem wpaRekeyGmk_steady (h : Steady cr env I) {W : Auth} (hI : I W) : I (wpaRekeyGmk env W) := by
  rw [wpaRekeyGmk]
  split
  · exact h.tick hI _
  refine h.groups _ _ (modGroup_move _ 0 _ (.inr ⟨rfl, BitVec.le_refl _⟩)) (fun g => ?_)
    (h.tick hI _)
  by_cases hg : g = 0
  · subst hg
    simp [Auth.modGroup, Group.fixed]
  · simp [Auth.modGroup, hg]

theorem startSta_closed (h : Closed cr env I) {fuel : ℕ} {W W' : Auth} (hI : I W) (i : ℕ)
    (hs : startSta cr env fuel W i = some W') : I W' := by
  simp only [startSta, Option.bind_eq_bind] at hs
  obtain ⟨W1, h1, h2⟩ := Option.bind_eq_some_iff.mp hs
  obtain rfl := Option.some.inj h2
  refine h.modSta (h.step fuel _ i W1 ?_ h1) i _ fun _ => rfl
  exact h.modSta hI i _ fun _ => rfl

theorem reauthenticate_harmless (c : Ctx) : Harmless c (reauthenticate c) := by
  simp only [reauthenticate]
  split
  · exact ((Harmless.of_goes (clearGUpdate_goes (.refl c)) rfl).trans
      (.of_fields { (clearGUpdate c).sm with ptkGroupInit := true } rfl)).trans
      (.of_fields _ rfl)
  · exact .of_fields _ rfl

theorem smEventReauth_closed (h : Closed cr env I) {fuel : ℕ} {W W' : Auth} (hI : I W) (i : ℕ)
    (hs : smEventReauth cr env fuel W i = some W') : I W' := by
  rw [smEventReauth] at hs
  split at hs
  · exact Option.some.inj hs ▸ hI
  split at hs
  · exact startSta_closed h hI i hs
  · exact Option.some.inj hs ▸ h.withSta hI i _ reauthenticate_harmless

theorem smEventRequest_closed (h : Closed cr env I) {fuel : ℕ} {W W' : Auth} (hI : I W) (i : ℕ)
    (event : WpaEvent) (hs : smEventRequest cr env fuel W i event = some W') : I W' := by
  cases event with
  | auth => exact Option.some.inj hs ▸ hI
  | assoc => exact Option.some.inj hs ▸ hI
  | deauth | disassoc => exact Option.some.inj hs ▸ h.modSta hI i _ fun _ => rfl
  | reauth => exact smEventReauth_closed h hI i hs
  | reauthEapol => exact smEventReauth_closed h hI i hs

theorem wpaRemovePtk_harmless (c : Ctx) : Harmless c (wpaRemovePtk c) :=
  .of_goes (wpaRemovePtk_goes (.refl c)) rfl

theorem smEventRemove_harmless (event : WpaEvent) (c : Ctx) :
    Harmless c (smEventRemove event c) := by
  have h1 : Harmless c { c with sm := { c.sm with ptkValid := false, ptk := .zero } } :=
    .of_fields _ rfl
  simp only [smEventRemove]
  split
  · exact .refl c
  split
  · exact h1
  · exact h1.trans (wpaRemovePtk_harmless _)

theorem wpaAuthSmEvent_closed (h : Closed cr env I) {fuel : ℕ} {W W' : Auth} (hI : I W) (i : ℕ)
    (event : WpaEvent) (hs : wpaAuthSmEvent cr env fuel W i event = some W') : I W' := by
  simp only [wpaAuthSmEvent, Option.bind_eq_bind] at hs
  obtain ⟨W1, h1, h2⟩ := Option.bind_eq_some_iff.mp hs
  have hI1 := smEventRequest_closed h hI i event h1
  exact h.step fuel _ i W' (h.withSta hI1 i _ (smEventRemove_harmless event)) h2

theorem wpaAuthStaAssociated_closed (h : Closed cr env I) {fuel : ℕ} {W W' : Auth} (hI : I W)
    (i : ℕ) (hs : wpaAuthStaAssociated cr env fuel W i = some W') : I W' := by
  simp only [wpaAuthStaAssociated] at hs
  split at hs
  · exact Option.some.inj hs ▸ hI
  split at hs
  · exact Option.some.inj hs ▸ hI
  split at hs
  · refine h.step fuel _ i W' ?_ hs
    exact h.modSta hI i _ fun _ => rfl
  simp only [Option.bind_eq_bind] at hs
  obtain ⟨W1, h1, h2⟩ := Option.bind_eq_some_iff.mp hs
  exact h.step fuel W1 i W' (startSta_closed h hI i h1) h2

theorem micChecked_fields (sm : Sta) : sm.micChecked.fields = sm.fields := by
  rw [Sta.micChecked]
  split <;> rfl

theorem counted_fields (sm : Sta) (f : EapolKey) : (sm.counted f).fields = sm.fields := by
  rw [Sta.counted]
  split <;> rfl

theorem receivePre_harmless (ap : Ap) (f : EapolKey) (c : Ctx) :
    Harmless c (receivePre cr ap f c).1 := by
  cases hpre : receivePre cr ap f c with
  | mk c' ok =>
    cases ok with
    | true =>
      obtain ⟨-, rfl⟩ := receivePre_true hpre
      exact .of_fields _ ((counted_fields _ f).trans (micChecked_fields c.sm))
    | false =>
      obtain ⟨hsm, hgrp, htick, hout⟩ := receivePre_false hpre
      have hfields : c'.sm.fields = c.sm.fields := by
        rcases hsm with hsm | hsm | hsm
        · rw [hsm]
        · rw [hsm]
          rfl
        · rw [hsm]
          exact micChecked_fields c.sm
      have hh := Harmless.of_fields c'.sm hfields
      refine ⟨hh.group, hh.inStepLoop, hh.ptkState, hh.nonce, hh.request, hh.moves.trans ?_, ?_⟩
      · rcases hgrp with hgrp | hgrp
        · rw [hgrp]
          exact .refl _ _
        · rw [hgrp]
          exact ⟨rfl, rfl, .inr ⟨rfl, BitVec.le_refl _⟩, id⟩
      · rcases hout with hout | hout
        · exact ⟨[], by simp [hout], by simp⟩
        · exact ⟨[.disconnect c.sm.addr], hout, by simp [Quiet]⟩

theorem receivePost_harmless (f : EapolKey) (c : Ctx) : Harmless c (receivePost env f c).1 := by
  rcases receivePost_cases env f c with h | h
  · rw [h]
    exact (Harmless.of_fields { c.sm with lastRxEapolKey := none } rfl).trans
      (.of_goes (Goes.refl _).ask rfl)
  · rw [h]
    exact (Harmless.of_fields (c.sm.posted f) rfl).trans (.of_goes (Goes.refl _).ask rfl)

theorem withStaCheck_fst (W : Auth) (i : ℕ) (f : Ctx → Ctx × Bool) :
    (withStaCheck W i f).1 = W.withSta i fun c => (f c).1 := by
  rw [withStaCheck]
  split
  · rename_i hi
    rw [Auth.withSta_none hi]
  · rfl

def checked (cr : Crypto) (W : Auth) (i : ℕ) (f : EapolKey) : Auth :=
  (withStaCheck W i (receivePre cr W.ap f)).1

def acceptedBy (cr : Crypto) (W : Auth) (i : ℕ) (f : EapolKey) : Bool :=
  (withStaCheck W i (receivePre cr W.ap f)).2

theorem acceptedBy_true {W : Auth} {i : ℕ} {f : EapolKey} (h : acceptedBy cr W i f = true) :
    ∃ sm, W.sta i = some sm ∧ Accepted cr W.ap f (W.ctx sm) ∧
      checked cr W i f = W.modSta i fun sm => sm.micChecked.counted f := by
  rw [acceptedBy, withStaCheck] at h
  cases hi : W.sta i with
  | none => simp [hi] at h
  | some sm =>
    simp only [hi] at h
    cases hpre : receivePre cr W.ap f (W.ctx sm) with
    | mk c ok =>
      obtain rfl : ok = true := (congrArg Prod.snd hpre).symm.trans h
      obtain ⟨hacc, rfl⟩ := receivePre_true hpre
      refine ⟨sm, rfl, hacc, ?_⟩
      rw [checked, withStaCheck_fst, Auth.withSta_some hi, hpre, modSta_eq_put hi]
      rfl

-- An accepted frame with which `wpa_receive` asks for a new PTK: a request for the pairwise
-- handshake, or the report of a MIC failure
def asksNewPtk (f : EapolKey) : Bool :=
  f.keyInfo.request && msgOf f ≠ .smkError && (f.keyInfo.error || f.keyInfo.keyType)

def asksNewGtk (f : EapolKey) : Bool :=
  f.keyInfo.request && msgOf f ≠ .smkError && !f.keyInfo.error && !f.keyInfo.keyType &&
    msgOf f ≠ .smkM1 && !decide (f.keyDataLength ≠ 0 ∧ (wpaParseKdeIes (kdeOf f)).1 ∧
      (wpaParseKdeIes (kdeOf f)).2.macAddr.isSome)

theorem wpaReceiveErrorReport_steady (h : Steady cr env I) {W : Auth} (hI : I W) (i : ℕ)
    (group : Bool) (hptk : ∀ V, V.sta = W.sta → I V → I (V.modSta i wpaRequestNewPtk)) :
    I (wpaReceiveErrorReport cr env W i group) := by
  simp only [wpaReceiveErrorReport]
  split
  · exact hI
  rename_i sm hi
  -- the report itself, and countermeasures that may follow it
  have hreport : I { W with tick := W.tick + 1, out := W.out ++ [.micFailureReport sm.addr] } :=
    h.groups W _ ⟨rfl, rfl, rfl, rfl, fun _ => .refl _, [.micFailureReport sm.addr], rfl,
      by simp [Quiet]⟩ (fun _ => ⟨rfl, rfl⟩) hI
  have hrekey : (wpaGtkRekey cr env { W with
      tick := W.tick + 1, out := W.out ++ [.micFailureReport sm.addr] }).sta = W.sta ∧
      I (wpaGtkRekey cr env { W with
        tick := W.tick + 1, out := W.out ++ [.micFailureReport sm.addr] }) :=
    ⟨(wpaGtkRekey_move _).1.sta, wpaGtkRekey_steady h hreport⟩
  have hboth (V : Auth) (hV : V.sta = W.sta ∧ I V) : I (V.modSta i wpaRequestNewPtk) :=
    hptk V hV.1 hV.2
  refine hboth _ ?_
  split_ifs
  · exact ⟨rfl, hI⟩
  · exact hrekey
  · exact ⟨rfl, hreport⟩
  · exact ⟨rfl, hI⟩
  · exact hrekey
  · exact ⟨rfl, hreport⟩

theorem receiveAct_steady (h : Steady cr env I) {fuel : ℕ} {W : Auth} {r : Auth × Bool} (hI : I W)
    (i : ℕ) (f : EapolKey)
    (hptk : asksNewPtk f = true → ∀ V, V.sta = W.sta → I V → I (V.modSta i wpaRequestNewPtk))
    (hgtk : asksNewGtk f = true → ∀ V', wpaRekeyGtk cr env fuel W = some V' → I V')
    (hs : receiveAct cr env fuel W i f = some r) : I r.1 := by
  rw [receiveAct] at hs
  split at hs
  · rename_i hreq
    rw [receiveRequest] at hs
    split at hs
    · exact Option.some.inj hs ▸ wpaSmkError_steady h hI i f
    rename_i hmsg
    split at hs
    · rename_i herror
      exact Option.some.inj hs ▸ wpaReceiveErrorReport_steady h hI i _
        (hptk (by simp [asksNewPtk, hreq, hmsg, herror]))
    rename_i herror
    split at hs
    · rename_i hkeyType
      exact Option.some.inj hs ▸ hptk (by simp [asksNewPtk, hreq, hmsg, hkeyType]) W rfl hI
    rename_i hkeyType
    split at hs
    · exact Option.some.inj hs ▸ wpaSmkM1_steady h hI i f
    rename_i hm1
    dsimp only at hs
    split at hs
    · exact Option.some.inj hs ▸ hI
    rename_i hmac
    obtain ⟨V', hV', rfl⟩ := Option.map_eq_some_iff.mp hs
    refine hgtk ?_ V' hV'
    rw [asksNewGtk, decide_eq_false hmac]
    simp [hreq, hmsg, herror, hkeyType, hm1]
  · split at hs
    · exact Option.some.inj hs ▸ wpaSmkM3_steady h hI i f
    · exact Option.some.inj hs ▸ hI

-- How `wpa_receive` ends for a frame: it is rejected, it is handled without the machines, there is
-- no memory to keep it, or the machines run.
inductive Received (cr : Crypto) (env : Env) (fuel : ℕ) (W : Auth) (i : ℕ) (f : EapolKey) :
    Auth → Prop where
  | rejected (hacc : acceptedBy cr W i f = false) : Received cr env fuel W i f (checked cr W i f)
  | handled {W' : Auth} (hacc : acceptedBy cr W i f = true)
      (hact : receiveAct cr env fuel (checked cr W i f) i f = some (W', false)) :
      Received cr env fuel W i f W'
  | noMemory {V W' : Auth} (hacc : acceptedBy cr W i f = true)
      (hact : receiveAct cr env fuel (checked cr W i f) i f = some (V, true))
      (hpost : withStaCheck V i (receivePost env f) = (W', false)) : Received cr env fuel W i f W'
  | stepped {V U W' : Auth} (hacc : acceptedBy cr W i f = true)
      (hact : receiveAct cr env fuel (checked cr W i f) i f = some (V, true))
      (hpost : withStaCheck V i (receivePost env f) = (U, true))
      (hstep : wpaSmStep cr env fuel U i = some W') : Received cr env fuel W i f W'

theorem wpaReceive_frame {fuel : ℕ} {W W' : Auth} {i : ℕ} {data : Octets} {f : EapolKey}
    (hconf : W.ap.conf.protos ≠ []) (hf : EapolKey.ofOctets? data = some f)
    (hs : wpaReceive cr env fuel W i data = some W') : Received cr env fuel W i f W' := by
  simp only [wpaReceive, if_neg hconf, hf] at hs
  split at hs
  · rename_i W1 hcheck
    obtain rfl : checked cr W i f = W1 := congrArg Prod.fst hcheck
    exact Option.some.inj hs ▸ .rejected (congrArg Prod.snd hcheck)
  rename_i W1 hcheck
  obtain rfl : checked cr W i f = W1 := congrArg Prod.fst hcheck
  have hacc : acceptedBy cr W i f = true := congrArg Prod.snd hcheck
  simp only [Option.bind_eq_bind] at hs
  obtain ⟨⟨V, go⟩, hact, hs⟩ := Option.bind_eq_some_iff.mp hs
  dsimp only at hs
  cases go with
  | false => exact Option.some.inj hs ▸ .handled hacc hact
  | true =>
    simp only [Bool.not_true, Bool.false_eq_true, if_false] at hs
    split at hs
    · rename_i U hpost
      exact Option.some.inj hs ▸ .noMemory hacc hact hpost
    · rename_i U hpost
      exact .stepped hacc hact hpost hs

theorem wpaReceive_received {fuel : ℕ} {W W' : Auth} {i : ℕ} {data : Octets}
    (hs : wpaReceive cr env fuel W i data = some W') :
    W' = W ∨ ∃ f, EapolKey.ofOctets? data = some f ∧ Received cr env fuel W i f W' := by
  by_cases hconf : W.ap.conf.protos = []
  · simp only [wpaReceive, hconf, if_true] at hs
    exact .inl (Option.some.inj hs).symm
  cases hf : EapolKey.ofOctets? data with
  | none =>
    simp only [wpaReceive, if_neg hconf, hf] at hs
    exact .inl (Option.some.inj hs).symm
  | some f => exact .inr ⟨f, rfl, wpaReceive_frame hconf hf hs⟩

-- `wpa_receive`: the request for a new PTK and the one for a new group key are left to the
-- invariant.
theorem wpaReceive_closed (h : Closed cr env I) {fuel : ℕ} {W W' : Auth} (hI : I W) (i : ℕ)
    (data : Octets)
    (hptk : ∀ f, EapolKey.ofOctets? data = some f → acceptedBy cr W i f = true →
      asksNewPtk f = true → ∀ V, V.sta = (checked cr W i f).sta → I V →
      I (V.modSta i wpaRequestNewPtk))
    (hgtk : ∀ f, EapolKey.ofOctets? data = some f → acceptedBy cr W i f = true →
      asksNewGtk f = true → I (checked cr W i f) →
      ∀ V', wpaRekeyGtk cr env fuel (checked cr W i f) = some V' → I V')
    (hs : wpaReceive cr env fuel W i data = some W') : I W' := by
  obtain rfl | ⟨f, hf, hrec⟩ := wpaReceive_received hs
  · exact hI
  have hI1 : I (checked cr W i f) := by
    rw [checked, withStaCheck_fst]
    exact h.withSta hI i _ (receivePre_harmless W.ap f)
  have hI2 (V : Auth) (go : Bool) (hacc : acceptedBy cr W i f = true)
      (hact : receiveAct cr env fuel (checked cr W i f) i f = some (V, go)) : I V :=
    receiveAct_steady h.steady hI1 i f (hptk f hf hacc) (fun hask => hgtk f hf hacc hask hI1) hact
  have hI3 (V : Auth) (hV : I V) : I (withStaCheck V i (receivePost env f)).1 := by
    rw [withStaCheck_fst]
    exact h.withSta hV i _ (receivePost_harmless f)
  cases hrec with
  | rejected hacc => exact hI1
  | handled hacc hact => exact hI2 _ _ hacc hact
  | @noMemory V _ hacc hact hpost =>
    have hU := hI3 V (hI2 V _ hacc hact)
    rwa [hpost] at hU
  | @stepped V U _ hacc hact hpost hstep =>
    have hU := hI3 V (hI2 V _ hacc hact)
    rw [hpost] at hU
    exact h.step fuel U i W' hU hstep

-- The events that ask neither for a new PTK nor for a new group key and move no station
def Event.ordinary : Event → Bool
  | .receive _ _ | .rekeyPtk _ | .rekeyGtk | .assocCb _ _ _ | .staSetVlan _ _ => false
  | _ => true

theorem run_closed (h : Closed cr env I) {fuel : ℕ} {W W' : Auth} {e : Event}
    (hord : e.ordinary = true) (hI : I W) (hs : run cr env fuel W e = some W') : I W' := by
  cases e with
  | receive i data | rekeyPtk i | rekeyGtk | assocCb i between last | staSetVlan i vlanId =>
    simp [Event.ordinary] at hord
  | sendEapolTimeout i =>
    refine h.step fuel _ i W' ?_ hs
    exact h.modSta hI i _ fun _ => rfl
  | rekeyGmk => exact Option.some.inj hs ▸ wpaRekeyGmk_steady h.steady hI
  | gtkRekey => exact Option.some.inj hs ▸ wpaGtkRekey_steady h.steady hI
  | callStep i => exact h.step fuel W i W' hI hs
  | smEvent i event => exact wpaAuthSmEvent_closed h hI i event hs
  | deletekeys i => exact Option.some.inj hs ▸ h.withSta hI i _ wpaRemovePtk_harmless
  | validateIe i req | noWpa i | pmksaClear i => exact Option.some.inj hs ▸ h.modSta hI i _ fun _ => rfl
  | staInit i addr pos =>
    refine Option.some.inj hs ▸ ?_
    cases hi : W.sta i with
    | none => exact h.join W i addr pos hI hi
    | some sm => simpa [wpaAuthStaInit, hi] using hI
  | staDeinit i => exact Option.some.inj hs ▸ h.leave W i hI

theorem handleAssocCb_closed (h : Closed cr env I) {fuel : ℕ} {W W' : Auth} (hI : I W) (i : ℕ)
    (between : List NewStation) (last : NewAssoc)
    (hbetween : ∀ V V', wpaAuthSmEvent cr env fuel W i .assoc = some V → I V →
      between.foldlM (newStation cr env fuel i) V = some V' → I V')
    (hs : handleAssocCb cr env fuel W i between last = some W') : I W' := by
  simp only [handleAssocCb, Option.bind_eq_bind] at hs
  obtain ⟨W1, h1, hs⟩ := Option.bind_eq_some_iff.mp hs
  obtain ⟨W2, h2, hs⟩ := Option.bind_eq_some_iff.mp hs
  have hI2 := hbetween W1 W2 h1 (wpaAuthSmEvent_closed h hI i .assoc h1) h2
  cases last with
  | associated => exact wpaAuthStaAssociated_closed h hI2 i hs
  | reassociated => exact wpaAuthSmEvent_closed h hI2 i .reauth hs
  | rejected => exact Option.some.inj hs ▸ hI2

end Closed

section Groups

variable {cr : Crypto} {env : Env}

-- What a function that leaves the station alone does to the group
theorem goes_grp {c c' : Ctx} (h : Goes c c') (hsm : c'.sm = c.sm) :
    c'.grp.fixed = c.grp.fixed ∧ c'.grp.gKeyDoneStations = c.grp.gKeyDoneStations := by
  have hcount := h.rel.2.count
  rw [hsm] at hcount
  exact ⟨h.rel.2.fixed, sub_left_injective hcount⟩

theorem wpaGroupInit_some {ap : Ap} {vlanId tick : ℕ} {out : List Out} {c : Ctx}
    (h : wpaGroupInit cr env ap vlanId tick out = some c) :
    c.grp.gInit = false ∧ c.grp.gtkReKey = false ∧ c.grp.state = .setkeysdone ∧
      c.grp.gKeyDoneStations = 0 ∧ ∃ l, c.out = out ++ l ∧ ∀ o ∈ l, Quiet o := by
  simp only [wpaGroupInit] at h
  split at h
  · simp at h
  split at h
  · simp at h
  rename_i c1 hc1
  have h1 := wpaGroupInitGmkAndCounter_goes cr env ap (Goes.refl (Ctx.ask
    ⟨{ group := 0, addr := 0 },
      { vlanId := vlanId, gtkLen := wpaGroupSetKeyLen ap.conf.wpaGroup }, tick, out⟩))
  have hsm1 := wpaGroupInitGmkAndCounter_sm cr env ap (Ctx.ask
    ⟨{ group := 0, addr := 0 },
      { vlanId := vlanId, gtkLen := wpaGroupSetKeyLen ap.conf.wpaGroup }, tick, out⟩)
  rw [hc1] at h1 hsm1
  obtain ⟨hfixed1, hcount1⟩ := goes_grp h1 hsm1
  generalize hc2 : wpaGroupGtkInit cr env ap { c1 with grp := { c1.grp with gInit := true } } =
    c2 at h
  have h2 := wpaGtkUpdate_goes cr env ap (Goes.refl { c1 with grp := { c1.grp with
    gInit := true
    changed := false
    state := .gtkInit
    gtk := fun _ => fit c1.grp.gtkLen []
    gn := .first
    gnIgtk := .first } })
  have hsm2 := wpaGtkUpdate_sm cr env ap { c1 with grp := { c1.grp with
    gInit := true
    changed := false
    state := .gtkInit
    gtk := fun _ => fit c1.grp.gtkLen []
    gn := .first
    gnIgtk := .first } }
  simp only [wpaGroupGtkInit] at hc2
  rw [hc2] at h2 hsm2
  obtain ⟨hfixed2, hcount2⟩ := goes_grp h2 hsm2
  have h3 := wpaGroupConfigGroupKeys_goes ap (Goes.refl { c2 with grp := { c2.grp with
    gInit := false, changed := true, state := .setkeysdone } })
  obtain rfl := Option.some.inj h
  obtain ⟨hfixed3, hcount3⟩ := goes_grp h3 (wpaGroupConfigGroupKeys_sm ap _)
  refine ⟨congrArg GroupFixed.gInit hfixed3, ?_, congrArg GroupFixed.state hfixed3, ?_, ?_⟩
  · exact (congrArg GroupFixed.gtkReKey hfixed3).trans
      ((congrArg GroupFixed.gtkReKey hfixed2).trans (congrArg GroupFixed.gtkReKey hfixed1))
  · exact hcount3.trans (hcount2.trans hcount1)
  · obtain ⟨l1, hl1, hall1⟩ := h1.emitted
    obtain ⟨l2, hl2, hall2⟩ := h2.emitted
    obtain ⟨l3, hl3, hall3⟩ := h3.emitted
    refine ⟨l1 ++ l2 ++ l3, ?_, ?_⟩
    · have h12 : c2.out = out ++ l1 ++ l2 := hl2.trans (congrArg (· ++ l2) hl1)
      refine (hl3.trans (congrArg (· ++ l3) h12)).trans ?_
      simp
    · intro o ho
      simp only [List.mem_append] at ho
      rcases ho with (ho | ho) | ho
      · exact hall1 o ho
      · exact hall2 o ho
      · exact hall3 o ho

theorem initial_group {W : Auth} (h : Initial cr W) (g : ℕ) :
    (W.group g).gInit = false ∧ (W.group g).gtkReKey = false ∧ (W.group g).state = .setkeysdone ∧
      (W.group g).gKeyDoneStations = 0 := by
  obtain ⟨env, conf, addr, h⟩ := h
  simp only [wpaInit, Option.bind_eq_bind] at h
  obtain ⟨wpaIe, -, h⟩ := Option.bind_eq_some_iff.mp h
  obtain ⟨c, hc, h⟩ := Option.bind_eq_some_iff.mp h
  obtain rfl := Option.some.inj h
  obtain ⟨h1, h2, h3, h4, -⟩ := wpaGroupInit_some hc
  exact ⟨h1, h2, h3, h4⟩

theorem initial_sta {W : Auth} (h : Initial cr W) : (∀ i, W.sta i = none) ∧ W.groupIds = [0] ∧
    W.staIds = [] := by
  obtain ⟨env, conf, addr, h⟩ := h
  simp only [wpaInit, Option.bind_eq_bind] at h
  obtain ⟨wpaIe, -, h⟩ := Option.bind_eq_some_iff.mp h
  obtain ⟨c, hc, h⟩ := Option.bind_eq_some_iff.mp h
  obtain rfl := Option.some.inj h
  exact ⟨fun _ => rfl, rfl, rfl⟩

theorem wpaAuthStaSetVlan_cases (W : Auth) (i vlanId : ℕ) :
    (∃ g, findGroup W vlanId = some g ∧
      wpaAuthStaSetVlan cr env W i vlanId = W.modSta i fun sm => { sm with group := g }) ∨
    (findGroup W vlanId = none ∧ (wpaGroupInit cr env W.ap vlanId W.tick W.out).isNone ∧
      wpaAuthStaSetVlan cr env W i vlanId = W) ∨
    (∃ c, findGroup W vlanId = none ∧ wpaGroupInit cr env W.ap vlanId W.tick W.out = some c ∧
      wpaAuthStaSetVlan cr env W i vlanId = Auth.modSta { W with
        groupIds := 0 :: W.groupIds.length :: W.groupIds.tail
        group := Function.update W.group W.groupIds.length c.grp
        tick := c.tick
        out := c.out } i fun sm => { sm with group := W.groupIds.length }) := by
  simp only [wpaAuthStaSetVlan, wpaAuthAddGroup]
  cases hfind : findGroup W vlanId with
  | some g => exact .inl ⟨g, rfl, rfl⟩
  | none =>
    cases hinit : wpaGroupInit cr env W.ap vlanId W.tick W.out with
    | none => exact .inr (.inl ⟨rfl, rfl, rfl⟩)
    | some c => exact .inr (.inr ⟨c, rfl, rfl, rfl⟩)

end Groups

section Resting

variable {cr : Crypto} {env : Env}

variable {W : Auth}

theorem put_resting {i : ℕ} {sm : Sta} {c : Ctx} (h : Resting W) (hi : W.sta i = some sm)
    (hc : Harmless (W.ctx sm) c) : Resting (W.put i sm.group c) := by
  refine ⟨h.noRekey.of_fixed (put_group_fixed W i sm.group c hc.moves.fixed), fun j smj hj => ?_⟩
  by_cases hji : j = i
  · subst hji
    obtain rfl : c.sm = smj := by simpa [Auth.put] using hj
    exact hc.inStepLoop.trans (h.idle j sm hi)
  · exact h.idle j smj (by simpa [Auth.put, hji] using hj)

theorem clearGUpdate_harmless (c : Ctx) : Harmless c (clearGUpdate c) :=
  .of_goes (clearGUpdate_goes (.refl c)) rfl

theorem resting_closed : Closed cr env Resting where
  groups W W' hmove hfixed h :=
    ⟨h.noRekey.of_fixed fun g => (hfixed g).1, fun j sm hj => h.idle j sm (by rwa [hmove.sta] at hj)⟩
  fn W i sm c h hi hc := put_resting h hi hc
  step fuel W i W' h hs := (wpaSmStep_resting h hs).1
  join W i addr pos h hi := by
    simp only [wpaAuthStaInit, hi, Option.isSome_none, Bool.false_eq_true, if_false]
    refine ⟨h.noRekey, fun j smj hj => ?_⟩
    by_cases hji : j = i
    · subst hji
      obtain rfl : ({ group := 0, addr := addr } : Sta) = smj := by simpa using hj
      rfl
    · exact h.idle j smj (by simpa [hji] using hj)
  leave W i h := by
    have h1 : Resting (W.withSta i clearGUpdate) := by
      cases hi : W.sta i with
      | none => rwa [Auth.withSta_none hi]
      | some sm =>
        rw [Auth.withSta_some hi]
        exact put_resting h hi (clearGUpdate_harmless _)
    refine ⟨h1.noRekey, fun j smj hj => ?_⟩
    by_cases hji : j = i
    · subst hji
      simp [wpaAuthStaDeinit] at hj
    · exact h1.idle j smj (by simpa [wpaAuthStaDeinit, hji] using hj)

theorem wpaRekeyGtk_resting {fuel : ℕ} {W' : Auth} (h : Resting W)
    (hs : wpaRekeyGtk cr env fuel W = some W') : Resting W' :=
  (wpaRekeyGtk_rule (I := fun _ => True) (fun _ _ _ _ => trivial) (fun _ _ _ _ => trivial)
    (fun _ _ _ _ _ _ => trivial) h trivial hs).2

theorem wpaAuthStaSetVlan_resting (h : Resting W) (i vlanId : ℕ) :
    Resting (wpaAuthStaSetVlan cr env W i vlanId) := by
  rcases @wpaAuthStaSetVlan_cases cr env W i vlanId with
    ⟨g, -, heq⟩ | ⟨-, -, heq⟩ | ⟨c, -, hinit, heq⟩
  · rw [heq]
    exact modSta_resting h i _ fun _ => rfl
  · rwa [heq]
  rw [heq]
  refine modSta_resting ?_ i _ fun _ => rfl
  refine ⟨fun g => ?_, h.idle⟩
  obtain ⟨h1, h2, h3, -, -⟩ := wpaGroupInit_some hinit
  by_cases hg : g = W.groupIds.length
  · subst hg
    simp [h1, h2, h3]
  · simpa [hg] using h.noRekey g

theorem newStations_resting {fuel i : ℕ} (l : List NewStation) {W W' : Auth} (h : Resting W)
    (hs : l.foldlM (newStation cr env fuel i) W = some W') : Resting W' := by
  refine foldlM_rule (fun V x V' hV hV' => ?_) l h hs
  cases x with
  | bindVlan vlanId => exact Option.some.inj hV' ▸ wpaAuthStaSetVlan_resting hV i vlanId
  | reauthEapol => exact wpaAuthSmEvent_closed resting_closed hV i .reauthEapol hV'

-- Between two events no station is in the loop of `wpa_sm_step` and no group waits for a new key.
theorem exec_resting {fuel : ℕ} {W' : Auth} {e : Event} (h : Resting W)
    (hs : exec cr env fuel W e = some W') : Resting W' := by
  have h0 : Resting W.start := ⟨h.noRekey, h.idle⟩
  rw [exec] at hs
  split at hs
  · cases e with
    | receive i data =>
      refine wpaReceive_closed resting_closed h0 i data ?_ ?_ hs
      · exact fun f _ _ _ V _ hV => modSta_resting hV i _ fun _ => rfl
      · exact fun f _ _ _ hV V' hV' => wpaRekeyGtk_resting hV hV'
    | rekeyPtk i =>
      simp only [run, wpaRekeyPtk] at hs
      refine (wpaSmStep_resting ?_ hs).1
      exact modSta_resting h0 i _ fun _ => rfl
    | rekeyGtk => exact wpaRekeyGtk_resting h0 hs
    | assocCb i between last =>
      exact handleAssocCb_closed resting_closed h0 i between last
        (fun V V' _ hV hV' => newStations_resting between hV hV') hs
    | staSetVlan i vlanId => exact Option.some.inj hs ▸ wpaAuthStaSetVlan_resting h0 i vlanId
    | _ => exact run_closed resting_closed rfl h0 hs
  · simp at hs

theorem run_resting {tr : List (Auth × Event × Auth)} (h : Run cr tr W) : Resting W := by
  induction h with
  | init h =>
    refine ⟨fun g => ?_, fun j sm hj => ?_⟩
    · obtain ⟨h1, h2, h3, -⟩ := initial_group h g
      exact ⟨h1, h2, by simp [h3]⟩
    · simp [(initial_sta h).1 j] at hj
  | step h hs ih =>
    obtain ⟨env, fuel, hs⟩ := hs
    exact exec_resting ih hs

end Resting

end WpaSupplicant.Authenticator
