import WpaSupplicant.Lib.Tickets
import WpaSupplicant.Authenticator.Events.Lemmas
import WpaSupplicant.Authenticator.Session

namespace WpaSupplicant.Authenticator

open Lib.Octets Lib.Window Lib.Effect Lib.Loop Lib.Tickets KeyData

-- The entries to PTKINITDONE in a list of outputs: the ANonce of the handshake with the group
-- Counter it was taken from
def handshakes (out : List Out) : List (Nonce × NonceOrigin) :=
  out.filterMap fun
    | .ptkInitDone _ anonce origin => some (anonce, origin)
    | _ => none

def handshakesOf : List (Auth × Event × Auth) → List (Nonce × NonceOrigin)
  | [] => []
  | (_, _, W) :: tr => handshakesOf tr ++ handshakes W.out

-- The event asks for a new PTK of station `i`: the rekeying timer, a request of the station for the
-- pairwise handshake, or its report of a MIC failure
def Event.asksPtk (cr : Crypto) (W : Auth) (i : ℕ) : Event → Prop
  | .rekeyPtk j => j = i
  | .receive j data => j = i ∧ W.ap.conf.protos ≠ [] ∧
      ∃ f, EapolKey.ofOctets? data = some f ∧ acceptedBy cr W.start j f = true ∧ asksNewPtk f = true
  | _ => False

def UnusedAnonce (cr : Crypto) (W : Auth) (e : Event) : Prop :=
  ∀ i sm, e.asksPtk cr W i → W.sta i = some sm → sm.anonceUsed = false

theorem handshakes_append (l l' : List Out) : handshakes (l ++ l') = handshakes l ++ handshakes l' :=
  List.filterMap_append

theorem handshakes_quiet (l : List Out) (h : ∀ o ∈ l, Quiet o) : handshakes l = [] := by
  rw [handshakes, List.filterMap_eq_nil_iff]
  intro o ho
  have hq := h o ho
  cases o with
  | ptkInitDone addr anonce origin => exact absurd hq id
  | _ => rfl

theorem handshakes_emitted {out out' : List Out} (h : ∃ l, out' = out ++ l ∧ ∀ o ∈ l, Quiet o) :
    handshakes out' = handshakes out := by
  obtain ⟨l, rfl, hall⟩ := h
  rw [handshakes_append, handshakes_quiet l hall, List.append_nil]

def Sta.held (sm : Sta) : Option (Nonce × NonceOrigin) :=
  if sm.anonceUsed then none else sm.anonceOrigin.map fun o => (sm.anonce, o)

def heldNonce (W : Auth) (i : ℕ) : Option (Nonce × NonceOrigin) := (W.sta i).bind Sta.held

def Before (n : Nonce) (epoch : ℕ) (g : Group) : Prop :=
  epoch < g.epoch ∨ (epoch = g.epoch ∧ n < g.counter)

def Drawn (W : Auth) (p : Nonce × NonceOrigin) : Prop :=
  p.2.group < W.groupIds.length ∧ Before p.1 p.2.epoch (W.group p.2.group)

theorem Before.mono {n : Nonce} {e : ℕ} {g g' : Group} (h : Before n e g) (hle : ClockLe g g') :
    Before n e g' := by
  rcases h with h | ⟨h, hn⟩
  · rcases hle with hle | ⟨hle, -⟩
    · exact .inl (h.trans hle)
    · exact .inl (hle ▸ h)
  rcases hle with hle | ⟨hle, hc⟩
  · exact .inl (h ▸ hle)
  refine .inr ⟨h.trans hle, ?_⟩
  rw [BitVec.lt_def] at hn ⊢
  rw [BitVec.le_def] at hc
  omega

theorem not_before_counter (g : Group) : ¬ Before g.counter g.epoch g := by
  rintro (h | ⟨-, h⟩)
  · exact lt_irrefl _ h
  · exact BitVec.lt_irrefl _ h

theorem before_incCounter (g : Group) : Before g.counter g.epoch g.incCounter := by
  rcases incCounter_cases g with h | ⟨h, hlt⟩
  · exact .inl (by omega)
  · exact .inr ⟨h.symm, hlt⟩

def PtkState.handshaking : PtkState → Bool
  | .authentication2 | .initpmk | .initpsk | .ptkstart | .ptkcalcnegotiating
  | .ptkcalcnegotiating2 | .ptkinitnegotiating => true
  | _ => false

def Dormant (sm : Sta) : Prop := sm.ptkRequest = false ∧ sm.ptkState.handshaking = false

structure NonceOk (sm : Sta) : Prop where
  dormant : sm.anonceUsed = true → Dormant sm
  origin : sm.anonceUsed = false → sm.anonceOrigin.isSome = true

-- The invariant: `past` are the handshakes of the events before the current one.
structure Fresh (past : List (Nonce × NonceOrigin)) (W : Auth) : Prop where
  ids : ∀ g ∈ W.groupIds, g < W.groupIds.length
  zero : 0 ∈ W.groupIds
  sta : ∀ i sm, W.sta i = some sm → sm.group < W.groupIds.length ∧ NonceOk sm
  tickets : Accounted (heldNonce W) (past ++ handshakes W.out) (Drawn W)

theorem heldNonce_put (W : Auth) (i g : ℕ) (c : Ctx) :
    heldNonce (W.put i g c) = Function.update (heldNonce W) i c.sm.held := by
  funext j
  by_cases hj : j = i
  · subst hj
    simp [heldNonce, Auth.put]
  · simp [heldNonce, Auth.put, hj]

variable {W : Auth} {i fuel : ℕ} {c : Ctx} {past : List (Nonce × NonceOrigin)} {sm : Sta} {cr : Crypto}
  {env : Env}

theorem drawn_put {g : ℕ} (hclock : ClockLe (W.group g) c.grp) (p : Nonce × NonceOrigin) (h : Drawn W p) :
    Drawn (W.put i g c) p :=
  ⟨h.1, h.2.mono (clockLe_update hclock _)⟩

theorem Fresh.put (h : Fresh past W) (hi : W.sta i = some sm) (hgroup : c.sm.group = sm.group)
    (hok : NonceOk c.sm)
    (ht : Accounted (Function.update (heldNonce W) i c.sm.held) (past ++ handshakes c.out)
      (Drawn (W.put i sm.group c))) : Fresh past (W.put i sm.group c) := by
  refine ⟨h.ids, h.zero, fun j smj hj => ?_, heldNonce_put W i sm.group c ▸ ht⟩
  by_cases hji : j = i
  · subst hji
    obtain rfl : c.sm = smj := by simpa [Auth.put] using hj
    exact ⟨hgroup ▸ (h.sta j sm hi).1, hok⟩
  · exact h.sta j smj (by simpa [Auth.put, hji] using hj)

theorem Fresh.keep (h : Fresh past W) (hi : W.sta i = some sm) (hgroup : c.sm.group = sm.group)
    (hnonce : c.sm.nonce = sm.nonce) (hdormant : sm.anonceUsed = true → Dormant c.sm)
    (hclock : ClockLe (W.group sm.group) c.grp) (hout : handshakes c.out = handshakes W.out) :
    Fresh past (W.put i sm.group c) := by
  have hused : c.sm.anonceUsed = sm.anonceUsed := congrArg StaNonce.used hnonce
  have horigin : c.sm.anonceOrigin = sm.anonceOrigin := congrArg StaNonce.origin hnonce
  have hanonce : c.sm.anonce = sm.anonce := congrArg StaNonce.anonce hnonce
  have hheld : c.sm.held = sm.held := by
    rw [Sta.held, Sta.held, hused, horigin, hanonce]
  have hself : Function.update (heldNonce W) i c.sm.held = heldNonce W := by
    rw [hheld, Function.update_eq_self_iff, heldNonce, hi]
    rfl
  refine h.put hi hgroup ⟨fun hu => hdormant (hused ▸ hu), fun hu => ?_⟩ ?_
  · rw [horigin]
    exact (h.sta i sm hi).2.origin (hused ▸ hu)
  · rw [hself, hout]
    exact h.tickets.mono (drawn_put hclock)

theorem Fresh.move {W' : Auth} (h : Fresh past W) (hmove : GroupsMove W W') : Fresh past W' := by
  have hheld : heldNonce W' = heldNonce W := by
    funext i
    rw [heldNonce, heldNonce, hmove.sta]
  refine ⟨?_, ?_, ?_, ?_⟩
  · rw [hmove.groupIds]
    exact h.ids
  · rw [hmove.groupIds]
    exact h.zero
  · rw [hmove.groupIds, hmove.sta]
    exact h.sta
  · rw [hheld, handshakes_emitted hmove.emitted]
    refine h.tickets.mono fun p hp => ⟨?_, hp.2.mono (hmove.clock _)⟩
    rw [hmove.groupIds]
    exact hp.1

theorem Fresh.harmless (h : Fresh past W) (hi : W.sta i = some sm) (hc : Harmless (W.ctx sm) c) :
    Fresh past (W.put i sm.group c) := by
  refine h.keep hi hc.group hc.nonce (fun hu => ?_) hc.moves.clock (handshakes_emitted hc.emitted)
  obtain ⟨hreq, hst⟩ := (h.sta i sm hi).2.dormant hu
  refine ⟨?_, by rw [hc.ptkState]; exact hst⟩
  by_contra hr
  have hr := hc.request (by simpa using hr)
  exact absurd hr (by simp [Auth.ctx, hreq])

-- AUTHENTICATION2: nobody has had the value of the Counter before.
theorem Fresh.drawn (h : Fresh past W) (hi : W.sta i = some sm) (hgroup : c.sm.group = sm.group)
    (hclock : ClockLe (W.group sm.group) c.grp) (hout : handshakes c.out = handshakes W.out) :
    Fresh past (W.put i sm.group c.drawn) := by
  have hheld : c.drawn.sm.held = some (c.grp.counter, ⟨c.sm.group, c.grp.epoch⟩) := rfl
  refine h.put hi hgroup ⟨fun hu => Bool.noConfusion hu, fun _ => rfl⟩ ?_
  rw [hheld]
  refine (hout ▸ h.tickets).draw i _ ?_ (drawn_put (hclock.trans (clockLe_incCounter _))) ?_
  · rintro ⟨-, hbefore⟩
    rw [hgroup] at hbefore
    exact not_before_counter c.grp (hbefore.mono hclock)
  · refine ⟨hgroup ▸ (h.sta i sm hi).1, ?_⟩
    simp only [Auth.put, hgroup, Function.update_self]
    exact before_incCounter c.grp

theorem Fresh.completed {c' : Ctx} (h : Fresh past W) (hi : W.sta i = some sm)
    (hsm : c.sm.fields = sm.fields) (hgrp : c.grp = W.group sm.group) (hout : c.out = W.out)
    (hcalm : c.sm.ptkRequest = false) (hunused : sm.anonceUsed = false) (hdone : Completes c c') :
    Fresh past (W.put i sm.group c') := by
  have hnonce : c.sm.nonce = sm.nonce := congrArg Harmless.Fields.nonce hsm
  have hgroup : c'.sm.group = sm.group :=
    (congrArg StaFixed.group hdone.fixed).trans (congrArg Harmless.Fields.group hsm)
  have hused : c'.sm.anonceUsed = true :=
    congrArg (fun x : StaCore => x.nonce.used) hdone.core
  have hreq : c'.sm.ptkRequest = false :=
    (congrArg StaCore.ptkRequest hdone.core).trans hcalm
  obtain ⟨o, ho⟩ := Option.isSome_iff_exists.mp ((h.sta i sm hi).2.origin hunused)
  have horigin : c.sm.anonceOrigin = some o := (congrArg StaNonce.origin hnonce).trans ho
  have hanonce : c.sm.anonce = sm.anonce := congrArg StaNonce.anonce hnonce
  have hheld : heldNonce W i = some (sm.anonce, o) := by
    simp [heldNonce, hi, Sta.held, hunused, ho]
  have hnone : c'.sm.held = none := by simp [Sta.held, hused]
  obtain ⟨l, hl, hall⟩ := hdone.emitted
  have hquiet : handshakes l = [] := by
    rw [handshakes, List.filterMap_eq_nil_iff]
    intro x hx
    rcases hall x hx with hq | ⟨alg, len, rfl⟩ | rfl | rfl
    · cases x with
      | ptkInitDone addr anonce origin => exact absurd hq id
      | _ => rfl
    · rfl
    · rfl
    · rfl
  have hhand : handshakes c'.out = handshakes W.out ++ [(sm.anonce, o)] := by
    rw [hl, hout, handshakes_append, horigin, hanonce]
    change handshakes W.out ++ ((sm.anonce, o) :: handshakes l) = _
    rw [hquiet]
  refine h.put hi hgroup ⟨fun _ => ⟨hreq, by rw [hdone.state]; rfl⟩, fun hu => ?_⟩ ?_
  · rw [hused] at hu
    exact Bool.noConfusion hu
  · rw [hnone, hhand, ← List.append_assoc]
    refine (h.tickets.spend i _ hheld).mono (drawn_put ?_)
    rw [hdone.grp, hgrp]
    exact .refl _

theorem dormant_enters {sm' : Sta} (h : Dormant sm) (henters : Enters sm sm') :
    sm'.ptkState.handshaking = false := by
  obtain ⟨hreq, hst⟩ := h
  cases hst' : sm'.ptkState with
  | ptkInitialize => rfl
  | disconnect => rfl
  | disconnected => rfl
  | authentication => rfl
  | authentication2 => simp [Enters, hst'] at henters
  | initpmk | initpsk =>
    simp only [Enters, hst'] at henters
    simp [henters.2, PtkState.handshaking] at hst
  | ptkstart =>
    simp only [Enters, hst'] at henters
    rcases henters with h | h | h | h | ⟨h, -⟩
    · simp [hreq] at h
    all_goals simp [h, PtkState.handshaking] at hst
  | ptkcalcnegotiating => simp [Enters, hst'] at henters
  | ptkcalcnegotiating2 =>
    simp only [Enters, hst'] at henters
    simp [henters.1, PtkState.handshaking] at hst
  | ptkinitnegotiating =>
    simp only [Enters, hst'] at henters
    rcases henters with h | h
    all_goals simp [h, PtkState.handshaking] at hst
  | ptkinitdone => rfl

theorem Fresh.ptkStep (h : Fresh past W) (hi : W.sta i = some sm)
    (hstep : PtkStep cr env W.ap (W.ctx sm).unmarked c) : Fresh past (W.put i sm.group c) := by
  have hdormant := (h.sta i sm hi).2.dormant
  -- in a state of the handshake the ANonce has not been used
  have hunused (hst : sm.ptkState.handshaking = true) : sm.anonceUsed = false := by
    by_contra hu
    have := (hdormant (by simpa using hu)).2
    simp [hst] at this
  cases hstep with
  | stay hcalm hcalc hgoes hsm =>
    refine h.keep hi (congrArg StaFixed.group hgoes.rel.1.fixed) hgoes.rel.1.nonce (fun hu => ?_)
      hgoes.rel.2.clock (handshakes_emitted hgoes.emitted)
    rw [hsm]
    exact hdormant hu
  | enter hgoes henters hchanged =>
    refine h.keep hi (congrArg StaFixed.group hgoes.rel.1.fixed) hgoes.rel.1.nonce (fun hu => ?_)
      hgoes.rel.2.clock (handshakes_emitted hgoes.emitted)
    have hd : Dormant (W.ctx sm).unmarked.sm := hdormant hu
    refine ⟨?_, dormant_enters hd henters⟩
    by_contra hr
    exact absurd (hgoes.rel.1.request (by simpa using hr)) (by simp [hd.1])
  | draw hfrom hgoes hentered =>
    exact h.drawn hi (congrArg StaFixed.group hgoes.rel.1.fixed) hgoes.rel.2.clock
      (handshakes_emitted hgoes.emitted)
  | msg2 hcalm hframe hstate =>
    have hst : sm.ptkState.handshaking = true := by
      rcases hstate with hst | ⟨hst, -⟩
      · exact congrArg PtkState.handshaking hst
      · exact congrArg PtkState.handshaking hst
    have hgoes := calculating_goes (W.ctx sm).unmarked
    have hvac (hu : sm.anonceUsed = true) (c' : Ctx) : Dormant c'.sm := by
      simp [hunused hst] at hu
    rcases ptkPtkcalcnegotiating_cases cr env W.ap (W.ctx sm).unmarked with
      heq | ⟨f, pmk, -, -, heq⟩
    · rw [heq]
      exact h.keep hi (congrArg StaFixed.group hgoes.rel.1.fixed) hgoes.rel.1.nonce
        (fun hu => hvac hu _) hgoes.rel.2.clock (handshakes_emitted hgoes.emitted)
    rw [heq]
    refine h.keep hi (congrArg StaFixed.group hgoes.rel.1.fixed) hgoes.rel.1.nonce
      (fun hu => hvac hu _) hgoes.rel.2.clock ?_
    refine Eq.trans ?_ (handshakes_emitted hgoes.emitted)
    simp [Ctx.derived, Ctx.emit, handshakes]
  | msg4 hcalm hframe hmic hstate =>
    have hst : sm.ptkState.handshaking = true := congrArg PtkState.handshaking hstate
    exact h.completed hi rfl rfl rfl hcalm.request (hunused hst)
      (ptkPtkinitdone_completes env W.ap _)

theorem Fresh.round (W : Auth) {i : ℕ} (sm : Sta) (h : Fresh past W) (hi : W.sta i = some sm) :
    Fresh past (W.put i sm.group (roundFn cr env W.ap (W.ctx sm))) := by
  obtain ⟨c, hstep, hgoes, hst⟩ := @roundFn_steps cr env W.ap (W.ctx sm)
  have hgroup : c.sm.group = sm.group := congrArg StaFixed.group (PtkStep.moves cr env W.ap hstep).1
  have h1 := h.ptkStep hi hstep
  have hi1 : (W.put i sm.group c).sta i = some c.sm := by simp [Auth.put]
  have h2 := h1.harmless hi1 (c := roundFn cr env W.ap (W.ctx sm))
    (by rw [Auth.put_ctx _ _ _ _ hgroup]; exact .of_goes hgoes hst)
  rwa [hgroup, Auth.put_put] at h2

theorem Fresh.looping (h : Fresh past W) (i : ℕ) (b : Bool) : Fresh past (W.modSta i (Sta.looping b)) := by
  cases hi : W.sta i with
  | none => rwa [Auth.modSta_none hi]
  | some sm =>
    rw [modSta_eq_put hi]
    exact h.keep hi rfl rfl (h.sta i sm hi).2.dormant (.refl _) rfl

theorem Fresh.step {W' : Auth} (hrest : Resting W) (h : Fresh past W)
    (hs : wpaSmStep cr env fuel W i = some W') : Fresh past W' := by
  cases hi : W.sta i with
  | none => exact wpaSmStep_none hi hs ▸ h
  | some sm =>
    obtain ⟨W1, hrounds, rfl⟩ := wpaSmStep_rounds hrest.noRekey hrest.idle hi hs
    have hround (V : Auth) (hV : Fresh past V) : Fresh past (smRound cr env i V) ∧ True :=
      ⟨smRound_rule (fun _ _ hmove hV => hV.move hmove) (fun U smU hU hiU => hU.round U smU hiU)
        V hV, trivial⟩
    exact (hrounds.rule (T := fun _ => True) hround (h.looping i true)).1.looping i false

theorem heldNonce_deinit (W : Auth) (i : ℕ) :
    heldNonce (wpaAuthStaDeinit W i) =
      Function.update (heldNonce (W.withSta i clearGUpdate)) i none := by
  funext j
  by_cases hj : j = i
  · subst hj
    simp [heldNonce, wpaAuthStaDeinit]
  · simp [heldNonce, wpaAuthStaDeinit, hj]

theorem Fresh.join (h : Fresh past W) {i : ℕ} (hi : W.sta i = none) (addr : Addr) (pos : ℕ) :
    Fresh past (wpaAuthStaInit W i addr pos) := by
  have hheld : heldNonce (wpaAuthStaInit W i addr pos) = heldNonce W := by
    funext j
    by_cases hj : j = i
    · subst hj
      simp [heldNonce, wpaAuthStaInit, hi, Sta.held]
    · simp [heldNonce, wpaAuthStaInit, hi, hj]
  have hticket := h.tickets
  rw [← hheld] at hticket
  simp only [wpaAuthStaInit, hi, Option.isSome_none, Bool.false_eq_true, if_false] at hticket ⊢
  refine ⟨h.ids, h.zero, fun j sm hj => ?_, hticket⟩
  by_cases hji : j = i
  · subst hji
    obtain rfl : ({ group := 0, addr := addr } : Sta) = sm := by simpa using hj
    exact ⟨h.ids 0 h.zero, fun _ => ⟨rfl, rfl⟩, fun hu => Bool.noConfusion hu⟩
  · exact h.sta j sm (by simpa [hji] using hj)

theorem Fresh.leave (h : Fresh past W) (i : ℕ) : Fresh past (wpaAuthStaDeinit W i) := by
  have h1 : Fresh past (W.withSta i clearGUpdate) := by
    cases hi : W.sta i with
    | none => rwa [Auth.withSta_none hi]
    | some sm =>
      rw [Auth.withSta_some hi]
      exact h.harmless hi (clearGUpdate_harmless _)
  refine ⟨h1.ids, h1.zero, fun j sm hj => ?_, ?_⟩
  · by_cases hji : j = i
    · subst hji
      simp [wpaAuthStaDeinit] at hj
    · exact h1.sta j sm (by simpa [wpaAuthStaDeinit, hji] using hj)
  · rw [heldNonce_deinit]
    exact h1.tickets.give_up i

theorem fresh_closed (past : List (Nonce × NonceOrigin)) :
    Closed cr env fun W => Resting W ∧ Fresh past W where
  groups W W' hmove hfixed h := ⟨(@resting_closed cr env).groups W W' hmove hfixed h.1,
    h.2.move hmove⟩
  fn _ _ _ _ h hi hc := ⟨put_resting h.1 hi hc, h.2.harmless hi hc⟩
  step _ _ _ _ h hs := ⟨(wpaSmStep_resting h.1 hs).1, h.2.step h.1 hs⟩
  join W i addr pos h hi := ⟨(@resting_closed cr env).join W i addr pos h.1 hi,
    h.2.join hi addr pos⟩
  leave W i h := ⟨(@resting_closed cr env).leave W i h.1, h.2.leave i⟩

theorem Fresh.request (h : Fresh past W) (i : ℕ) (f : Sta → Sta)
    (hf : ∀ sm, (f sm).group = sm.group ∧ (f sm).nonce = sm.nonce)
    (hunused : ∀ sm, W.sta i = some sm → sm.anonceUsed = false) : Fresh past (W.modSta i f) := by
  cases hi : W.sta i with
  | none => rwa [Auth.modSta_none hi]
  | some sm =>
    rw [modSta_eq_put hi]
    refine h.keep hi (hf sm).1 (hf sm).2 (fun hu => ?_) (.refl _) rfl
    simp [hunused sm hi] at hu

theorem Fresh.rekeyGtk {W' : Auth} (hrest : Resting W) (h : Fresh past W)
    (hs : wpaRekeyGtk cr env fuel W = some W') : Resting W' ∧ Fresh past W' := by
  have hflag (V : Auth) (i : ℕ) (b : Bool) (hV : Fresh past V) :
      Fresh past (V.modSta i (Sta.updating b)) := by
    cases hi : V.sta i with
    | none => rwa [Auth.modSta_none hi]
    | some sm =>
      rw [modSta_eq_put hi]
      exact hV.keep hi rfl rfl (hV.sta i sm hi).2.dormant (.refl _) rfl
  have hrule := wpaRekeyGtk_rule (fun _ _ hmove hV => hV.move hmove) hflag
    (fun V i V' hrestV hV hV' => hV.step hrestV hV') hrest h hs
  exact ⟨hrule.2, hrule.1⟩

theorem Fresh.inGroup (h : Fresh past W) (i g : ℕ) (hg : g < W.groupIds.length) :
    Fresh past (W.modSta i fun sm => { sm with group := g }) := by
  have hheld : heldNonce (W.modSta i fun sm => { sm with group := g }) = heldNonce W := by
    funext j
    by_cases hj : j = i
    · subst hj
      cases hi : W.sta j with
      | none => simp [heldNonce, Auth.modSta, hi]
      | some sm => simp [heldNonce, Auth.modSta, hi, Sta.held]
    · simp [heldNonce, Auth.modSta, hj]
  refine ⟨h.ids, h.zero, fun j sm hj => ?_, ?_⟩
  · by_cases hji : j = i
    · subst hji
      simp only [Auth.modSta, Function.update_self] at hj
      obtain ⟨sm0, hsm0, rfl⟩ := Option.map_eq_some_iff.mp hj
      have hok := (h.sta j sm0 hsm0).2
      exact ⟨hg, hok.dormant, hok.origin⟩
    · exact h.sta j sm (by simpa [Auth.modSta, hji] using hj)
  · rw [hheld]
    exact h.tickets

theorem Fresh.setVlan (h : Fresh past W) (i vlanId : ℕ) :
    Fresh past (wpaAuthStaSetVlan cr env W i vlanId) := by
  rcases @wpaAuthStaSetVlan_cases cr env W i vlanId with
    ⟨g, hfind, heq⟩ | ⟨-, -, heq⟩ | ⟨c, -, hinit, heq⟩
  · rw [heq]
    exact h.inGroup i g (h.ids g (List.mem_of_find?_eq_some hfind))
  · rwa [heq]
  rw [heq]
  obtain ⟨-, -, -, -, hemitted⟩ := wpaGroupInit_some hinit
  have hlen : (0 :: W.groupIds.length :: W.groupIds.tail).length = W.groupIds.length + 1 := by
    have := List.length_pos_of_mem h.zero
    simp only [List.length_cons, List.length_tail]
    omega
  refine Fresh.inGroup ⟨?_, ?_, ?_, ?_⟩ i _ ?_
  · intro g hg
    rw [hlen]
    simp only [List.mem_cons] at hg
    rcases hg with rfl | rfl | hg
    · omega
    · omega
    · exact (h.ids g (List.mem_of_mem_tail hg)).trans (Nat.lt_succ_self _)
  · simp
  · intro j sm hj
    obtain ⟨hg, hok⟩ := h.sta j sm hj
    rw [hlen]
    exact ⟨hg.trans (Nat.lt_succ_self _), hok⟩
  · rw [handshakes_emitted hemitted]
    refine h.tickets.mono fun p hp => ⟨?_, ?_⟩
    · rw [hlen]
      exact hp.1.trans (Nat.lt_succ_self _)
    · have hne : p.2.group ≠ W.groupIds.length := Nat.ne_of_lt hp.1
      simpa [hne] using hp.2
  · rw [hlen]
    exact Nat.lt_succ_self _

theorem Fresh.newStations (l : List NewStation) {W W' : Auth} (h : Resting W ∧ Fresh past W)
    (hs : l.foldlM (newStation cr env fuel i) W = some W') : Resting W' ∧ Fresh past W' := by
  refine foldlM_rule (I := fun V => Resting V ∧ Fresh past V) (fun V x V' hV hV' => ?_) l h hs
  cases x with
  | bindVlan vlanId =>
    exact Option.some.inj hV' ▸ ⟨wpaAuthStaSetVlan_resting hV.1 i vlanId, hV.2.setVlan i vlanId⟩
  | reauthEapol => exact wpaAuthSmEvent_closed (fresh_closed past) hV i .reauthEapol hV'

theorem exec_fresh {W' : Auth} {e : Event} (hrest : Resting W) (h : Fresh past W.start)
    (hcond : UnusedAnonce cr W e) (hs : exec cr env fuel W e = some W') : Fresh past W' := by
  have h0 : Resting W.start ∧ Fresh past W.start := ⟨⟨hrest.noRekey, hrest.idle⟩, h⟩
  have hclosed := @fresh_closed cr env past
  rw [exec] at hs
  split at hs
  · cases e with
    | receive i data =>
      by_cases hconf : W.ap.conf.protos = []
      · have hstart : W.start.ap.conf.protos = [] := hconf
        simp only [run, wpaReceive, hstart, if_true] at hs
        exact Option.some.inj hs ▸ h
      refine (wpaReceive_closed hclosed h0 i data ?_ ?_ hs).2
      · intro f hf hacc hask V hV hIV
        refine ⟨modSta_resting hIV.1 i _ fun _ => rfl,
          hIV.2.request i wpaRequestNewPtk (fun _ => ⟨rfl, rfl⟩) fun sm hi => ?_⟩
        -- the checks on the frame leave the ANonce alone
        rw [hV, checked, withStaCheck_fst] at hi
        cases hi0 : W.start.sta i with
        | none => simp [Auth.withSta_none hi0, hi0] at hi
        | some sm0 =>
          have hharm := @receivePre_harmless cr W.start.ap f (W.start.ctx sm0)
          rw [Auth.withSta_some hi0] at hi
          obtain rfl : (receivePre cr W.start.ap f (W.start.ctx sm0)).1.sm = sm := by
            simpa [Auth.put] using hi
          have hused := hcond i sm0 ⟨rfl, hconf, f, hf, hacc, hask⟩ hi0
          exact (congrArg StaNonce.used hharm.nonce).trans hused
      · exact fun f _ _ _ hV V' hV' => hV.2.rekeyGtk hV.1 hV'
    | rekeyPtk i =>
      simp only [run, wpaRekeyPtk] at hs
      refine Fresh.step ?_ ?_ hs
      · exact modSta_resting h0.1 i _ fun _ => rfl
      · exact h.request i _ (fun _ => ⟨rfl, rfl⟩) fun sm hi => hcond i sm rfl hi
    | rekeyGtk => exact (h.rekeyGtk h0.1 hs).2
    | assocCb i between last =>
      exact (handleAssocCb_closed hclosed h0 i between last
        (fun V V' _ hV hV' => Fresh.newStations between hV hV') hs).2
    | staSetVlan i vlanId => exact Option.some.inj hs ▸ h.setVlan i vlanId
    | _ => exact (run_closed hclosed rfl h0 hs).2
  · simp at hs

theorem run_fresh {tr : List (Auth × Event × Auth)} (h : Run cr tr W)
    (hcond : ∀ x ∈ tr, UnusedAnonce cr x.1 x.2.1) : Fresh (handshakesOf tr) W.start := by
  induction h with
  | init h =>
    obtain ⟨hsta, hids, -⟩ := initial_sta h
    refine ⟨by simp [Auth.start, hids], by simp [Auth.start, hids], ?_, ?_⟩
    · intro i sm hi
      simp [Auth.start, hsta i] at hi
    · refine ⟨?_, ?_, ?_, ?_, ?_⟩
      all_goals simp [heldNonce, Auth.start, hsta, handshakesOf, handshakes]
  | @step tr W W' e h hs ih =>
    obtain ⟨env, fuel, hs⟩ := hs
    have hfresh := exec_fresh (run_resting h) (ih fun x hx => hcond x (List.mem_cons_of_mem _ hx))
      (hcond _ List.mem_cons_self) hs
    refine ⟨hfresh.ids, hfresh.zero, hfresh.sta, ?_⟩
    rw [show handshakes W'.start.out = [] from rfl, List.append_nil]
    exact hfresh.tickets

-- No two handshakes of a run have used the same ANonce from the same epoch of the Counter of a
-- group, as long as no new PTK is asked for after the ANonce of a station has been used.
theorem fresh_anonce {cr : Crypto} {tr : List (Auth × Event × Auth)} {W : Auth} (h : Run cr tr W)
    (hcond : ∀ x ∈ tr, UnusedAnonce cr x.1 x.2.1) : (handshakesOf tr).Nodup := by
  have hnodup := (run_fresh h hcond).tickets.nodup
  simpa [Auth.start, handshakes] using hnodup

-- What the station answers after a reassociation, where it is given the next ANonce
def nextPtk : Ptk :=
  Ptk.write .zero (Crypto.transparent.wpaPmkToPtk (List.replicate 32 1) "Pairwise key expansion" 1 2
    (sampleAnonce + 1) 7 48 false) 48

def nextMsg2 : Event :=
  .receive 0 (sampleFrame nextPtk (KeyInfo.typeHmacSha1Aes ||| KeyInfo.keyTypeBit |||
    KeyInfo.micBit) 1 7 [48, 0]).toOctets

def nextMsg4 : Event :=
  .receive 0 (sampleFrame nextPtk (KeyInfo.typeHmacSha1Aes ||| KeyInfo.keyTypeBit |||
    KeyInfo.micBit ||| KeyInfo.secureBit) 2 0 []).toOctets

-- Two handshakes of one station, the second one after a reassociation
set_option maxRecDepth 100000 in
theorem fresh_anonce_reassociation :
    ∃ r, sampleRun (sampleAssoc ++ [sampleMsg2 1, sampleMsg4 2, .assocCb 0 [] .associated, nextMsg2,
        nextMsg4]) = some r ∧
      (handshakesOf r.1).map Prod.fst = [sampleAnonce, sampleAnonce + 1] ∧ (handshakesOf r.1).Nodup := by
  have hsome : ((sampleRun (sampleAssoc ++ [sampleMsg2 1, sampleMsg4 2, .assocCb 0 [] .associated,
      nextMsg2, nextMsg4])).map fun r => (handshakesOf r.1).map Prod.fst) =
      some [sampleAnonce, sampleAnonce + 1] := by
    rfl
  obtain ⟨r, hr, hnonces⟩ := Option.map_eq_some_iff.mp hsome
  refine ⟨r, hr, hnonces, fresh_anonce (run_sampleRun hr) fun x hx i sm hask hi => ?_⟩
  -- none of the events asks for a new PTK
  have hmem := sampleRun_events hr x hx
  simp only [sampleAssoc, sampleMsg2, sampleMsg4, nextMsg2, nextMsg4, List.cons_append, List.nil_append,
    List.mem_cons, List.not_mem_nil, or_false] at hmem
  rcases hmem with h | h | h | h | h | h | h | h
  all_goals rw [h] at hask
  case inr.inr.inr.inl | inr.inr.inr.inr.inl | inr.inr.inr.inr.inr.inr.inl | inr.inr.inr.inr.inr.inr.inr =>
    obtain ⟨-, -, f, hf, -, hnew⟩ := hask
    rw [EapolKey.ofOctets?_toOctets] at hf
    obtain rfl := Option.some.inj hf
    exact absurd hnew (by decide)
  all_goals exact hask.elim

-- The rekeying timer starts a second handshake with the ANonce of the first one.
set_option maxRecDepth 100000 in
theorem anonce_reused_on_rekey :
    ∃ r, sampleRun (sampleAssoc ++ [sampleMsg2 1, sampleMsg4 2, .rekeyPtk 0, sampleMsg2 3,
        sampleMsg4 4]) = some r ∧ Run .transparent r.1 r.2 ∧
      handshakesOf r.1 = [(sampleAnonce, ⟨0, 2⟩), (sampleAnonce, ⟨0, 2⟩)] := by
  have hsome : ((sampleRun (sampleAssoc ++ [sampleMsg2 1, sampleMsg4 2, .rekeyPtk 0, sampleMsg2 3,
      sampleMsg4 4])).map fun r => handshakesOf r.1) =
      some [(sampleAnonce, ⟨0, 2⟩), (sampleAnonce, ⟨0, 2⟩)] := by
    rfl
  obtain ⟨r, hr, htwice⟩ := Option.map_eq_some_iff.mp hsome
  exact ⟨r, hr, run_sampleRun hr, htwice⟩

end WpaSupplicant.Authenticator
