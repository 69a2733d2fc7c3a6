import WpaSupplicant.Authenticator.GroupRekey.Lemmas
import WpaSupplicant.Authenticator.PortControl

namespace WpaSupplicant.Authenticator

open Lib.Octets Lib.Window Lib.Effect Lib.Loop Lib.Tally KeyData

-- The accounts of all groups are right.
structure Tallied (W : Auth) : Prop where
  registered : Registered W
  balanced : ∀ g, W.surplus g = 0

section Stations

variable {cr : Crypto} {env : Env} {W W' : Auth} {i : ℕ}

theorem Registered.join (h : Registered W) (hi : W.sta i = none) (addr : Addr) (pos : ℕ) :
    Registered (wpaAuthStaInit W i addr pos) := by
  have hmem : i ∉ W.staIds := fun hm => by simpa [hi] using (h.listed i).mp hm
  simp only [wpaAuthStaInit, hi, Option.isSome_none, Bool.false_eq_true, if_false]
  refine ⟨?_, fun j => ?_, fun j smj hj => ?_, h.groups, h.bound, h.first⟩
  · rw [List.perm_middle.nodup_iff, List.take_append_drop]
    exact List.nodup_cons.mpr ⟨hmem, h.nodup⟩
  · have hperm : j ∈ W.staIds.take pos ++ i :: W.staIds.drop pos ↔ j = i ∨ j ∈ W.staIds := by
      conv_rhs => rw [← List.take_append_drop pos W.staIds]
      simp only [List.mem_append, List.mem_cons]
      tauto
    rw [hperm]
    by_cases hji : j = i
    · simp [hji]
    · simpa [hji] using h.listed j
  · by_cases hji : j = i
    · subst hji
      obtain rfl : ({ group := 0, addr := addr } : Sta) = smj := by simpa using hj
      obtain ⟨l, hl⟩ := h.first
      simp [hl]
    · exact h.group j smj (by simpa [hji] using hj)

theorem surplus_join (h : Registered W) (hi : W.sta i = none) (addr : Addr) (pos g : ℕ) :
    (wpaAuthStaInit W i addr pos).surplus g = W.surplus g := by
  have hmem : i ∉ W.staIds := fun hm => by simpa [hi] using (h.listed i).mp hm
  simp only [wpaAuthStaInit, hi, Option.isSome_none, Bool.false_eq_true, if_false, Auth.surplus,
    Auth.updatingStations]
  rw [countP_insert _ (by simp [Auth.updatingIn, Sta.updatingIn])]
  congr 2
  refine List.countP_congr fun j hj => ?_
  have hji : j ≠ i := fun hji => hmem (hji ▸ hj)
  simp [Auth.updatingIn, hji]

-- A station that leaves is counted off first.
theorem tallied_leave (h : Registered W) (i : ℕ) :
    Registered (wpaAuthStaDeinit W i) ∧ ∀ g, (wpaAuthStaDeinit W i).surplus g = W.surplus g := by
  have h1 : Registered (W.withSta i clearGUpdate) ∧
      (∀ g, (W.withSta i clearGUpdate).surplus g = W.surplus g) ∧
      ∀ g, (W.withSta i clearGUpdate).updatingIn g i = false := by
    cases hi : W.sta i with
    | none =>
      rw [Auth.withSta_none hi]
      exact ⟨h, fun _ => rfl, fun g => by simp [Auth.updatingIn, hi]⟩
    | some sm =>
      have hharm := clearGUpdate_harmless (W.ctx sm)
      rw [Auth.withSta_some hi]
      refine ⟨h.put hi _ hharm.group, surplus_moves h hi hharm.group hharm.moves, fun g => ?_⟩
      simp [Auth.updatingIn, Auth.put, Sta.updatingIn, clearGUpdate]
  obtain ⟨hreg, hsurplus, hflag⟩ := h1
  rw [wpaAuthStaDeinit]
  generalize W.withSta i clearGUpdate = W1 at hreg hsurplus hflag ⊢
  refine ⟨⟨hreg.nodup.filter _, fun j => ?_, fun j smj hj => ?_, hreg.groups, hreg.bound, hreg.first⟩,
    fun g => (Eq.trans ?_ (hsurplus g))⟩
  · by_cases hji : j = i
    · simp [hji]
    · simpa [hji] using hreg.listed j
  · by_cases hji : j = i
    · subst hji
      simp at hj
    · exact hreg.group j smj (by simpa [hji] using hj)
  · simp only [Auth.surplus, Auth.updatingStations]
    rw [countP_filter_ne (by simp [Auth.updatingIn])]
    congr 2
    refine List.countP_congr fun j hj => ?_
    by_cases hji : j = i
    · subst hji
      simp only [hflag g]
      simp [Auth.updatingIn]
    · simp [Auth.updatingIn, hji]

theorem tallied_closed : Closed cr env fun W => Resting W ∧ Tallied W where
  groups W W' hmove hfixed h := by
    refine ⟨(@resting_closed cr env).groups W W' hmove hfixed h.1,
      h.2.registered.same hmove.sta hmove.staIds hmove.groupIds, fun g => ?_⟩
    rw [surplus_same hmove.sta hmove.staIds (fun g => (hfixed g).2)]
    exact h.2.balanced g
  fn W i sm c h hi hc :=
    ⟨put_resting h.1 hi hc, h.2.registered.put hi _ hc.group,
      fun g => (surplus_moves h.2.registered hi hc.group hc.moves g).trans (h.2.balanced g)⟩
  step fuel W i W' h hs := by
    obtain ⟨hreg, hsurplus⟩ := wpaSmStep_surplus h.1 h.2.registered hs
    exact ⟨(wpaSmStep_resting h.1 hs).1, hreg, fun g => (hsurplus g).trans (h.2.balanced g)⟩
  join W i addr pos h hi :=
    ⟨(@resting_closed cr env).join W i addr pos h.1 hi, h.2.registered.join hi addr pos,
      fun g => (surplus_join h.2.registered hi addr pos g).trans (h.2.balanced g)⟩
  leave W i h := by
    obtain ⟨hreg, hsurplus⟩ := tallied_leave h.2.registered i
    exact ⟨(@resting_closed cr env).leave W i h.1, hreg,
      fun g => (hsurplus g).trans (h.2.balanced g)⟩

end Stations

section Vlan

variable {cr : Crypto} {env : Env} {W W' : Auth} {i : ℕ}

-- The station can be bound to the VLAN without harm to the accounts: it is not marked, or it is
-- in the group of the VLAN already.
def KeepsGroup (W : Auth) (i vlanId : ℕ) : Prop :=
  ∀ sm, W.sta i = some sm → sm.gUpdateStationKeys = true → findGroup W vlanId = some sm.group

theorem moved_updatingIn {V : Auth} {k : ℕ} (hsta : V.sta = W.sta)
    (hsafe : ∀ sm, W.sta i = some sm → sm.gUpdateStationKeys = true → k = sm.group) (g j : ℕ) :
    (V.modSta i fun sm => { sm with group := k }).updatingIn g j = W.updatingIn g j := by
  by_cases hji : j = i
  · subst hji
    cases hj : W.sta j with
    | none => simp [Auth.updatingIn, Auth.modSta, hsta, hj]
    | some sm =>
      cases hflag : sm.gUpdateStationKeys with
      | false => simp [Auth.updatingIn, Auth.modSta, hsta, hj, Sta.updatingIn, hflag]
      | true =>
        have hk := hsafe sm hj hflag
        simp [Auth.updatingIn, Auth.modSta, hsta, hj, Sta.updatingIn, hk]
  · simp [Auth.updatingIn, Auth.modSta, hsta, hji]

theorem Registered.inGroup (h : Registered W) (i : ℕ) {k : ℕ} (hk : k ∈ W.groupIds) :
    Registered (W.modSta i fun sm => { sm with group := k }) := by
  refine ⟨h.nodup, fun j => ?_, fun j smj hj => ?_, h.groups, h.bound, h.first⟩
  · by_cases hji : j = i
    · subst hji
      simpa [Auth.modSta] using h.listed j
    · simpa [Auth.modSta, hji] using h.listed j
  · by_cases hji : j = i
    · subst hji
      simp only [Auth.modSta, Function.update_self] at hj
      obtain ⟨sm, -, rfl⟩ := Option.map_eq_some_iff.mp hj
      exact hk
    · exact h.group j smj (by simpa [Auth.modSta, hji] using hj)

theorem Registered.addGroup (h : Registered W) {V : Auth} (hsta : V.sta = W.sta)
    (hstaIds : V.staIds = W.staIds)
    (hids : V.groupIds = 0 :: W.groupIds.length :: W.groupIds.tail) : Registered V := by
  obtain ⟨l, hl⟩ := h.first
  have hlen : V.groupIds = 0 :: (l.length + 1) :: l := by simp [hids, hl]
  have hbound : ∀ g ∈ l, g < l.length + 1 := fun g hg => by
    simpa [hl] using h.bound g (by simp [hl, hg])
  have hnodup : (0 :: l).Nodup := hl ▸ h.groups
  obtain ⟨h0, hl'⟩ := List.nodup_cons.mp hnodup
  refine ⟨by rw [hstaIds]; exact h.nodup, fun j => by rw [hstaIds, hsta]; exact h.listed j,
    fun j smj hj => ?_, ?_, ?_, ⟨_, hlen⟩⟩
  · have hg := h.group j smj (hsta ▸ hj)
    rw [hl] at hg
    rw [hlen]
    rcases List.mem_cons.mp hg with hg | hg
    · simp [hg]
    · simp [hg]
  · rw [hlen, List.nodup_cons, List.nodup_cons]
    refine ⟨?_, fun hm => (hbound _ hm).false, hl'⟩
    simpa using h0
  · rw [hlen]
    intro g hg
    simp only [List.mem_cons, List.length_cons] at hg ⊢
    rcases hg with rfl | rfl | hg
    · omega
    · omega
    · have := hbound g hg
      omega

theorem Registered.setVlan (h : Registered W) (i vlanId : ℕ) :
    Registered (wpaAuthStaSetVlan cr env W i vlanId) := by
  rcases @wpaAuthStaSetVlan_cases cr env W i vlanId with
    ⟨k, hfind, heq⟩ | ⟨-, -, heq⟩ | ⟨c, -, -, heq⟩
  · rw [heq]
    exact h.inGroup i (List.mem_of_find?_eq_some hfind)
  · rwa [heq]
  rw [heq]
  refine Registered.inGroup ?_ i (by simp)
  exact h.addGroup rfl rfl rfl

theorem surplus_setVlan (h : Registered W) {vlanId : ℕ} (hsafe : KeepsGroup W i vlanId)
    (hzero : ∀ g, W.surplus g = 0) (g : ℕ) :
    (wpaAuthStaSetVlan cr env W i vlanId).surplus g = 0 := by
  have hsame (V : Auth) (k : ℕ) (hsta : V.sta = W.sta) (hids : V.staIds = W.staIds)
      (hk : ∀ sm, W.sta i = some sm → sm.gUpdateStationKeys = true → k = sm.group) :
      (V.modSta i fun sm => { sm with group := k }).updatingStations g = W.updatingStations g := by
    simp only [Auth.updatingStations]
    change List.countP _ V.staIds = _
    rw [hids]
    exact List.countP_congr fun j _ => by rw [moved_updatingIn hsta hk]
  rcases @wpaAuthStaSetVlan_cases cr env W i vlanId with
    ⟨k, hfind, heq⟩ | ⟨-, -, heq⟩ | ⟨c, hfind, hinit, heq⟩
  · rw [heq, Auth.surplus, hsame W k rfl rfl fun sm hi hflag => ?_]
    · exact hzero g
    · exact Option.some.inj (hfind.symm.trans (hsafe sm hi hflag))
  · rw [heq]
    exact hzero g
  -- a new group: a marked station would have to be in it already
  have hnone (sm : Sta) (hi : W.sta i = some sm) (hflag : sm.gUpdateStationKeys = true) :
      W.groupIds.length = sm.group := by
    have := hsafe sm hi hflag
    simp [hfind] at this
  obtain ⟨-, -, -, hcount, -⟩ := wpaGroupInit_some hinit
  rw [heq, Auth.surplus, hsame { W with
    groupIds := 0 :: W.groupIds.length :: W.groupIds.tail
    group := Function.update W.group W.groupIds.length c.grp
    tick := c.tick
    out := c.out } _ rfl rfl hnone]
  by_cases hg : g = W.groupIds.length
  · subst hg
    have hlen : W.groupIds.length ∉ W.groupIds := fun hm => (h.bound _ hm).false
    rw [h.updatingStations hlen]
    simp [Auth.modSta, hcount]
  · have hz := hzero g
    rw [Auth.surplus] at hz
    simpa [Auth.modSta, hg] using hz

def Unmarked (i : ℕ) (W : Auth) : Prop :=
  ∀ sm, W.sta i = some sm → sm.gUpdateStationKeys = false

theorem Unmarked.put {j : ℕ} {sm : Sta} {c : Ctx} (h : Unmarked i W) (hj : W.sta j = some sm)
    (hmoves : Moves sm (W.group sm.group) c.sm c.grp) (g : ℕ) : Unmarked i (W.put j g c) := by
  intro smi hi
  by_cases hij : i = j
  · subst hij
    obtain rfl : c.sm = smi := by simpa [Auth.put] using hi
    exact takenBack hmoves.pending (h sm hj)
  · exact h smi (by simpa [Auth.put, hij] using hi)

theorem Unmarked.congr (h : Unmarked i W) (hsta : W'.sta = W.sta) : Unmarked i W' := by
  rw [Unmarked, hsta]
  exact h

theorem Unmarked.modSta (h : Unmarked i W) (j : ℕ) (f : Sta → Sta)
    (hf : ∀ sm, (f sm).gUpdateStationKeys = sm.gUpdateStationKeys) : Unmarked i (W.modSta j f) := by
  intro smi hi
  by_cases hij : i = j
  · subst hij
    simp only [Auth.modSta, Function.update_self] at hi
    obtain ⟨sm, hsm, rfl⟩ := Option.map_eq_some_iff.mp hi
    exact (hf sm).trans (h sm hsm)
  · exact h smi (by simpa [Auth.modSta, hij] using hi)

theorem smRound_unmarked (j : ℕ) (h : Unmarked i W) : Unmarked i (smRound cr env j W) := by
  have hmove := groupRound_move (staRound cr env W j) j
  refine Unmarked.congr ?_ hmove.sta
  cases hj : W.sta j with
  | none =>
    rw [staRound_none hj]
    exact h.congr rfl
  | some sm =>
    rw [staRound_some hj]
    have h0 : Unmarked i W.unmarked := h.congr rfl
    have hj0 : W.unmarked.sta j = some sm := hj
    exact h0.put hj0 (@roundFn_moves cr env W.ap (W.unmarked.ctx sm)).2 _

variable {fuel : ℕ}

theorem wpaSmStep_unmarked {j : ℕ} (hrest : Resting W) (h : Unmarked i W)
    (hs : wpaSmStep cr env fuel W j = some W') : Unmarked i W' := by
  cases hj : W.sta j with
  | none =>
    obtain rfl := wpaSmStep_none hj hs
    exact h
  | some sm =>
    obtain ⟨W1, hrounds, rfl⟩ := wpaSmStep_rounds hrest.noRekey hrest.idle hj hs
    refine Unmarked.modSta ?_ j _ fun _ => rfl
    exact (hrounds.rule (I := Unmarked i) (T := fun _ => True)
      (fun V hV => ⟨smRound_unmarked j hV, trivial⟩) (h.modSta j _ fun _ => rfl)).1

-- A mark that is gone does not come back by itself.
theorem unmarked_closed : Closed cr env fun W => Resting W ∧ Unmarked i W where
  groups W W' hmove hfixed h :=
    ⟨(@resting_closed cr env).groups W W' hmove hfixed h.1, h.2.congr hmove.sta⟩
  fn W j sm c h hj hc := ⟨put_resting h.1 hj hc, h.2.put hj hc.moves _⟩
  step fuel W j W' h hs := ⟨(wpaSmStep_resting h.1 hs).1, wpaSmStep_unmarked h.1 h.2 hs⟩
  join W j addr pos h hj := by
    refine ⟨(@resting_closed cr env).join W j addr pos h.1 hj, fun smi hi => ?_⟩
    simp only [wpaAuthStaInit, hj, Option.isSome_none, Bool.false_eq_true, if_false] at hi
    by_cases hij : i = j
    · subst hij
      obtain rfl : ({ group := 0, addr := addr } : Sta) = smi := by simpa using hi
      rfl
    · exact h.2 smi (by simpa [hij] using hi)
  leave W j h := by
    refine ⟨(@resting_closed cr env).leave W j h.1, fun smi hi => ?_⟩
    have h1 : Unmarked i (W.withSta j clearGUpdate) := by
      cases hj : W.sta j with
      | none => rw [Auth.withSta_none hj]; exact h.2
      | some sm =>
        rw [Auth.withSta_some hj]
        exact h.2.put hj (clearGUpdate_harmless (W.ctx sm)).moves _
    by_cases hij : i = j
    · subst hij
      simp [wpaAuthStaDeinit] at hi
    · exact h1 smi (by simpa [wpaAuthStaDeinit, hij] using hi)

theorem reauthenticate_unmarked (c : Ctx) : (reauthenticate c).sm.gUpdateStationKeys = false := by
  simp only [reauthenticate]
  split
  · rfl
  · rename_i hflag
    simpa using hflag

theorem startSta_unmarked (hrest : Resting W) (hs : startSta cr env fuel W i = some W') : Unmarked i W' := by
  simp only [startSta, Option.bind_eq_bind] at hs
  obtain ⟨W1, h1, h2⟩ := Option.bind_eq_some_iff.mp hs
  obtain rfl := Option.some.inj h2
  refine Unmarked.modSta ?_ i _ fun _ => rfl
  have hrest0 : Resting (W.modSta i fun sm => { sm with started := true, init := true }) :=
    modSta_resting hrest i _ fun _ => rfl
  have hinit0 : ∀ sm, (W.modSta i fun sm => { sm with started := true, init := true }).sta i =
      some sm → sm.init = true := by
    intro sm hsm
    simp only [Auth.modSta, Function.update_self] at hsm
    obtain ⟨sm0, -, rfl⟩ := Option.map_eq_some_iff.mp hsm
    rfl
  generalize (W.modSta i fun sm => { sm with started := true, init := true }) = W0 at hrest0 hinit0 h1
  cases hi : W0.sta i with
  | none =>
    obtain rfl := wpaSmStep_none hi h1
    exact fun sm hsm => by simp [hi] at hsm
  | some sm =>
    obtain ⟨W2, hrounds, rfl⟩ := wpaSmStep_rounds hrest0.noRekey hrest0.idle hi h1
    refine Unmarked.modSta ?_ i _ fun _ => rfl
    have hi0 : (W0.modSta i (Sta.looping true)).sta i = some (sm.looping true) := by
      simp [Auth.modSta_some hi]
    refine (hrounds.rule (I := fun V => ∃ smV, V.sta i = some smV ∧ smV.init = true)
      (T := Unmarked i) (fun V hV => ?_) ⟨_, hi0, hinit0 sm hi⟩).2
    obtain ⟨smV, hiV, hinit⟩ := hV
    obtain ⟨hsta, -⟩ := @smRound_some cr env V i smV hiV
    have hi1 : (smRound cr env i V).sta i =
        some (roundFn cr env V.ap (V.unmarked.ctx smV)).sm := by simp [hsta]
    have hinitV : (V.unmarked.ctx smV).sm.init = true := hinit
    obtain ⟨hgoes, -, hflag⟩ := @roundFn_init cr env V.ap _ hinitV
    refine ⟨⟨_, hi1, (congrArg StaFixed.init hgoes.rel.1.fixed).trans hinit⟩, fun sm' hsm' => ?_⟩
    exact Option.some.inj (hi1.symm.trans hsm') ▸ hflag

theorem wpaAuthSmEvent_reauthEapol_unmarked (hrest : Resting W)
    (hs : wpaAuthSmEvent cr env fuel W i .reauthEapol = some W') : Unmarked i W' := by
  simp only [wpaAuthSmEvent, Option.bind_eq_bind] at hs
  obtain ⟨W1, h1, h2⟩ := Option.bind_eq_some_iff.mp hs
  have hrest1 := smEventRequest_closed resting_closed hrest i .reauthEapol h1
  have hun1 : Unmarked i W1 := by
    simp only [smEventRequest, smEventReauth] at h1
    split at h1
    · rename_i hi
      exact Option.some.inj h1 ▸ fun sm hsm => by simp [hi] at hsm
    rename_i sm hi
    split at h1
    · exact startSta_unmarked hrest h1
    refine Option.some.inj h1 ▸ fun sm' hsm' => ?_
    rw [Auth.withSta_some hi] at hsm'
    obtain rfl : (reauthenticate (W.ctx sm)).sm = sm' := by simpa [Auth.put] using hsm'
    exact reauthenticate_unmarked _
  have hclosed := @unmarked_closed cr env i
  exact (hclosed.step fuel _ i W'
    (hclosed.withSta ⟨hrest1, hun1⟩ i _ (smEventRemove_harmless .reauthEapol)) h2).2

theorem Unmarked.setVlan (h : Unmarked i W) (vlanId : ℕ) :
    Unmarked i (wpaAuthStaSetVlan cr env W i vlanId) := by
  rcases @wpaAuthStaSetVlan_cases cr env W i vlanId with
    ⟨k, -, heq⟩ | ⟨-, -, heq⟩ | ⟨c, -, -, heq⟩
  · rw [heq]
    exact h.modSta i _ fun _ => rfl
  · rwa [heq]
  rw [heq]
  refine Unmarked.modSta ?_ i _ fun _ => rfl
  exact h

theorem setVlan_self {vlanId : ℕ} {sm : Sta} (hi : W.sta i = some sm)
    (hfind : findGroup W vlanId = some sm.group) : wpaAuthStaSetVlan cr env W i vlanId = W := by
  have hself : Function.update W.sta i (some sm) = W.sta := by rw [← hi, Function.update_eq_self]
  simp only [wpaAuthStaSetVlan, hfind, Auth.modSta, hi, Option.map_some, hself]

-- What `handle_assoc_cb` does between the event and its end. A mark is gone behind
-- `WPA_REAUTH_EAPOL`.
theorem newStations_tallied (l : List NewStation) (h : Resting W ∧ Tallied W)
    (hkeep : Unmarked i W ∨
      ∀ vlanId, .bindVlan vlanId ∈ l.takeWhile (· ≠ .reauthEapol) → KeepsGroup W i vlanId)
    (hs : l.foldlM (newStation cr env fuel i) W = some W') : Resting W' ∧ Tallied W' := by
  induction l generalizing W with
  | nil =>
    obtain rfl : W = W' := by simpa using hs
    exact h
  | cons x l ih =>
    rw [List.foldlM_cons] at hs
    obtain ⟨W1, h1, hl⟩ := Option.bind_eq_some_iff.mp hs
    cases x with
    | bindVlan vlanId =>
      obtain rfl := Option.some.inj h1
      have hsafe : KeepsGroup W i vlanId := by
        rcases hkeep with hun | hkeep
        · exact fun sm hi hflag => by simp [hun sm hi] at hflag
        · exact hkeep vlanId (by simp)
      have h' : Resting (wpaAuthStaSetVlan cr env W i vlanId) ∧
          Tallied (wpaAuthStaSetVlan cr env W i vlanId) :=
        ⟨wpaAuthStaSetVlan_resting h.1 i vlanId, h.2.registered.setVlan i vlanId,
          surplus_setVlan h.2.registered hsafe h.2.balanced⟩
      by_cases hun : Unmarked i W
      · exact ih h' (.inl (hun.setVlan vlanId)) hl
      -- a marked station stays where it is
      simp only [Unmarked, not_forall, Bool.not_eq_false] at hun
      obtain ⟨sm, hi, hflag⟩ := hun
      rw [setVlan_self hi (hsafe sm hi hflag)] at hl
      refine ih h (.inr fun v hv => ?_) hl
      rcases hkeep with hun | hkeep
      · exact fun sm hi hflag => by simp [hun sm hi] at hflag
      refine hkeep v ?_
      rw [List.takeWhile_cons_of_pos (by simp)]
      exact List.mem_cons_of_mem _ hv
    | reauthEapol =>
      have h' := wpaAuthSmEvent_closed tallied_closed h i .reauthEapol h1
      exact ih h' (.inl (wpaAuthSmEvent_reauthEapol_unmarked h.1 h1)) hl

end Vlan

section Runs

variable {cr : Crypto} {env : Env} {D : ℕ → Evidence} {W W' : Auth} {i : ℕ}

-- Every station in PTKINITDONE belongs to the group that `wpa_rekey_gtk` works on last.
def LastGroupOnly (W : Auth) : Prop :=
  ∀ i sm, W.sta i = some sm → sm.ptkState = .ptkinitdone → W.groupIds.getLast? = some sm.group

-- The event does not disturb the accounts: a new group key is made only while `LastGroupOnly`
-- holds, and no marked station changes its group.
def Undisturbed (cr : Crypto) (W : Auth) : Event → Prop
  | .rekeyGtk => LastGroupOnly W
  | .receive i data => W.ap.conf.protos ≠ [] → ∀ f, EapolKey.ofOctets? data = some f →
      acceptedBy cr W.start i f = true → asksNewGtk f = true → LastGroupOnly W
  | .staSetVlan i vlanId => KeepsGroup W i vlanId
  | .assocCb i between _ => ∀ vlanId, .bindVlan vlanId ∈ between.takeWhile (· ≠ .reauthEapol) →
      KeepsGroup W i vlanId
  | _ => True

variable {fuel : ℕ}

theorem rekeyGtk_tallied (hrest : Resting W) (hport : Port D W) (h : Tallied W) (hlast : LastGroupOnly W)
    (hs : wpaRekeyGtk cr env fuel W = some W') : Tallied W' := by
  obtain ⟨l, hl⟩ := h.registered.first
  obtain ⟨L, hL⟩ : ∃ L, W.groupIds.getLast? = some L := by
    rw [hl]
    exact ⟨_, List.getLast?_eq_some_getLast (by simp)⟩
  have hsweep : Sweeping D L W := by
    refine ⟨hport, h.registered, fun i sm hi hd => ?_⟩
    exact Option.some.inj ((hlast i sm hi hd).symm.trans hL)
  have hnodup : ([] ++ W.groupIds).Nodup := h.registered.groups
  obtain ⟨hreg, hsurplus⟩ := wpaRekeyGtk_fold W.groupIds hnodup hL hrest
    hsweep rfl (fun k _ => h.balanced k) (fun hb => absurd rfl hb) hs
  exact ⟨hreg, hsurplus⟩

-- The checks on a received frame leave the places of the stations alone.
theorem LastGroupOnly.checked {f : EapolKey} (h : LastGroupOnly W) :
    LastGroupOnly (checked cr W i f) := by
  rw [Authenticator.checked, withStaCheck_fst]
  cases hi : W.sta i with
  | none =>
    rw [Auth.withSta_none hi]
    exact h
  | some sm =>
    have hharm := @receivePre_harmless cr W.ap f (W.ctx sm)
    rw [Auth.withSta_some hi]
    intro j smj hj hd
    by_cases hji : j = i
    · subst hji
      obtain rfl : (receivePre cr W.ap f (W.ctx sm)).1.sm = smj := by simpa [Auth.put] using hj
      rw [hharm.group]
      exact h j sm hi (hharm.ptkState.symm.trans hd)
    · exact h j smj (by simpa [Auth.put, hji] using hj) hd

theorem smRound_vlanId (j g : ℕ) :
    ((smRound cr env j W).group g).vlanId = (W.group g).vlanId := by
  have hround := congrArg GroupFixed.vlanId (@staRound_group_fixed cr env W j g)
  have hround : ((staRound cr env W j).group g).vlanId = (W.group g).vlanId := hround
  rw [smRound, groupRound]
  split
  · exact hround
  rename_i sm hj
  split
  · by_cases hg : g = sm.group
    · subst hg
      simpa [Auth.withGroup, wpaGroupSetkeysdone_grp] using hround
    · simpa [Auth.withGroup, hg] using hround
  · exact hround

theorem wpaSmStep_vlanId {j : ℕ} (hrest : Resting W) (hs : wpaSmStep cr env fuel W j = some W') (g : ℕ) :
    (W'.group g).vlanId = (W.group g).vlanId := by
  cases hj : W.sta j with
  | none =>
    obtain rfl := wpaSmStep_none hj hs
    rfl
  | some sm =>
    obtain ⟨W1, hrounds, rfl⟩ := wpaSmStep_rounds hrest.noRekey hrest.idle hj hs
    exact (hrounds.rule (I := fun V => (V.group g).vlanId = (W.group g).vlanId)
      (T := fun _ => True) (fun V hV => ⟨(smRound_vlanId j g).trans hV, trivial⟩) rfl).1

theorem findGroup_congr (hids : W'.groupIds = W.groupIds)
    (hvlan : ∀ g, (W'.group g).vlanId = (W.group g).vlanId) (vlanId : ℕ) :
    findGroup W' vlanId = findGroup W vlanId := by
  rw [findGroup, findGroup, hids]
  congr 1
  funext g
  rw [hvlan]

theorem KeepsGroup.assoc {vlanId : ℕ} (hrest : Resting W) (h : KeepsGroup W i vlanId)
    (hs : wpaAuthSmEvent cr env fuel W i .assoc = some W') : KeepsGroup W' i vlanId := by
  intro sm' hi' hflag
  cases hi : W.sta i with
  | none =>
    simp only [wpaAuthSmEvent, smEventRequest, Option.bind_eq_bind, Option.bind_some] at hs
    rw [Auth.withSta_none hi] at hs
    obtain rfl := wpaSmStep_none hi hs
    simp [hi] at hi'
  | some sm =>
    have hmarked : sm.gUpdateStationKeys = true := by
      by_contra hno
      have hun : Unmarked i W := fun smi hsmi => by
        obtain rfl := Option.some.inj (hi.symm.trans hsmi)
        simpa using hno
      have hun' := (wpaAuthSmEvent_closed (@unmarked_closed cr env i) ⟨hrest, hun⟩ i .assoc hs).2
      simp [hun' sm' hi'] at hflag
    have hharm := smEventRemove_harmless .assoc (W.ctx sm)
    simp only [wpaAuthSmEvent, smEventRequest, Option.bind_eq_bind, Option.bind_some] at hs
    rw [Auth.withSta_some hi] at hs
    have hrest1 := put_resting hrest hi hharm
    obtain ⟨-, hframe⟩ := wpaSmStep_resting hrest1 hs
    have hgroup : sm'.group = sm.group := by
      have hfixed := hframe.fixed
      rw [hi'] at hfixed
      simp only [Auth.put, Function.update_self, Option.map_some, Option.some.injEq] at hfixed
      exact (congrArg StaFixed.group hfixed).trans hharm.group
    rw [findGroup_congr hframe.groupIds, hgroup]
    · have hput := @findGroup_congr W (W.put i sm.group (smEventRemove .assoc (W.ctx sm))) rfl
        (fun g => congrArg GroupFixed.vlanId (put_group_fixed W i sm.group _ hharm.moves.fixed g))
        vlanId
      rw [hput]
      exact h sm hi hmarked
    · exact wpaSmStep_vlanId hrest1 hs

theorem exec_tallied {e : Event} (hrest : Resting W) (hport : Port D W.start) (h : Tallied W)
    (hcond : Undisturbed cr W e) (hs : exec cr env fuel W e = some W') : Tallied W' := by
  have h0 : Resting W.start ∧ Tallied W.start :=
    ⟨⟨hrest.noRekey, hrest.idle⟩, h.registered.same rfl rfl rfl, h.balanced⟩
  have hclosed := @tallied_closed cr env
  rw [exec] at hs
  split at hs
  · cases e with
    | receive i data =>
      by_cases hconf : W.ap.conf.protos = []
      · have hstart : W.start.ap.conf.protos = [] := hconf
        simp only [run, wpaReceive, hstart, if_true] at hs
        exact Option.some.inj hs ▸ h0.2
      refine (wpaReceive_closed hclosed h0 i data ?_ ?_ hs).2
      · intro f hf hacc hask V hV hIV
        refine ⟨modSta_resting hIV.1 i _ fun _ => rfl,
          modSta_registered hIV.2.registered i _ fun _ => rfl, fun g => ?_⟩
        rw [modSta_surplus hIV.2.registered i wpaRequestNewPtk fun _ => ⟨rfl, rfl⟩]
        exact hIV.2.balanced g
      · intro f hf hacc hask hIV V' hV'
        have hlast : LastGroupOnly W.start := hcond hconf f hf hacc hask
        have hat := @checked_at cr D (D i) W.start i f (hport.at h0.1 i)
        exact ⟨wpaRekeyGtk_resting hIV.1 hV', rekeyGtk_tallied hIV.1 hat.port hIV.2 hlast.checked hV'⟩
    | rekeyPtk i =>
      simp only [run, wpaRekeyPtk] at hs
      have hreg := h0.2.registered
      refine (hclosed.step fuel _ i W' ⟨?_, ?_, fun g => ?_⟩ hs).2
      · exact modSta_resting h0.1 i _ fun _ => rfl
      · exact modSta_registered hreg i _ fun _ => rfl
      · rw [modSta_surplus hreg i (fun sm => wpaRequestNewPtk { sm with rekeyTimer := false })
          fun _ => ⟨rfl, rfl⟩]
        exact h0.2.balanced g
    | rekeyGtk => exact rekeyGtk_tallied h0.1 hport h0.2 hcond hs
    | assocCb i between last =>
      refine (handleAssocCb_closed hclosed h0 i between last ?_ hs).2
      intro V V' hV hIV hV'
      refine newStations_tallied between hIV (.inr fun vlanId hv => ?_) hV'
      exact KeepsGroup.assoc h0.1 (hcond vlanId hv) hV
    | staSetVlan i vlanId =>
      exact Option.some.inj hs ▸ ⟨h0.2.registered.setVlan i vlanId,
        surplus_setVlan h0.2.registered hcond h0.2.balanced⟩
    | _ => exact (run_closed hclosed rfl h0 hs).2
  · simp at hs

theorem run_tallied {tr : List (Auth × Event × Auth)} (h : Run cr tr W)
    (hcond : ∀ x ∈ tr, Undisturbed cr x.1 x.2.1) : Tallied W := by
  induction h with
  | init h =>
    obtain ⟨hsta, hids, hstas⟩ := initial_sta h
    refine ⟨⟨by simp [hstas], fun i => by simp [hstas, hsta], fun i sm hi => by simp [hsta] at hi,
      by simp [hids], by simp [hids], ⟨[], hids⟩⟩, fun g => ?_⟩
    simp [Auth.surplus, Auth.updatingStations, hstas, (initial_group h g).2.2.2]
  | @step tr W W' e h hs ih =>
    obtain ⟨env, fuel, hs⟩ := hs
    exact exec_tallied (run_resting h) (run_waits h)
      (ih fun x hx => hcond x (List.mem_cons_of_mem _ hx)) (hcond _ List.mem_cons_self) hs

end Runs

-- The number of marked stations of a group is 0 when each of them has confirmed, failed or left.
theorem updatingStations_eq_zero {W : Auth} (h : Registered W) (g : ℕ) :
    W.updatingStations g = 0 ↔
      ∀ i sm, W.sta i = some sm → sm.group = g → sm.gUpdateStationKeys = false := by
  rw [Auth.updatingStations, List.countP_eq_zero]
  constructor
  · intro hzero i sm hi hg
    have hno := hzero i (h.mem hi)
    simpa [Auth.updatingIn, hi, Sta.updatingIn, hg] using hno
  · intro hall i _ hup
    obtain ⟨sm, hi, hsm⟩ := (Option.any_eq_true ..).mp hup
    simp only [Sta.updatingIn, Bool.and_eq_true, decide_eq_true_eq] at hsm
    simp [hall i sm hi hsm.1] at hsm

-- In every run whose events do not disturb the accounts, `GKeyDoneStations` of each group is the
-- number of its stations with `GUpdateStationKeys`, and the group machine leaves SETKEYS exactly
-- when there is none.
theorem group_rekey_accounting {cr : Crypto} {tr : List (Auth × Event × Auth)} {W : Auth}
    (h : Run cr tr W) (hcond : ∀ x ∈ tr, Undisturbed cr x.1 x.2.1) (g : ℕ) :
    (W.group g).gKeyDoneStations = W.updatingStations g ∧
      ((W.group g).state = .setkeys → ∀ env step W', wpaGroupSmStep cr env step W g = some W' →
        ((W'.group g).state = .setkeysdone ↔
          ∀ i sm, W.sta i = some sm → sm.group = g → sm.gUpdateStationKeys = false)) := by
  have htally := run_tallied h hcond
  have hcount : (W.group g).gKeyDoneStations = W.updatingStations g := sub_eq_zero.mp (htally.balanced g)
  refine ⟨hcount, fun hst env step W' hs => ?_⟩
  obtain ⟨hinit, hrekey, -⟩ := (run_resting h).noRekey g
  rw [← updatingStations_eq_zero htally.registered g]
  simp only [wpaGroupSmStep, hinit, hst, hrekey, hcount, Bool.false_eq_true, if_false] at hs
  split at hs
  · rename_i hzero
    obtain rfl := Option.some.inj hs
    simp only [Auth.withGroup, Function.update_self, wpaGroupSetkeysdone_grp, true_iff]
    exact_mod_cast hzero
  · rename_i hzero
    obtain rfl := Option.some.inj hs
    simp only [hst, reduceCtorEq, false_iff]
    exact_mod_cast hzero

theorem sampleHandshake_undisturbed {r : List (Auth × Event × Auth) × Auth}
    (hr : sampleRun (sampleAssoc ++ [sampleMsg2 1, sampleMsg4 2]) = some r) :
    ∀ x ∈ r.1, Undisturbed .transparent x.1 x.2.1 := by
  intro x hx
  have hmem := sampleRun_events hr x hx
  simp only [sampleAssoc, sampleMsg2, sampleMsg4, List.cons_append, List.nil_append, List.mem_cons,
    List.not_mem_nil, or_false] at hmem
  rcases hmem with h | h | h | h | h
  all_goals rw [h]
  · trivial
  · trivial
  · exact fun vlanId hv => by simp at hv
  · intro _ f hf _ hask
    rw [EapolKey.ofOctets?_toOctets] at hf
    obtain rfl := Option.some.inj hf
    exact absurd hask (by decide)
  · intro _ f hf _ hask
    rw [EapolKey.ofOctets?_toOctets] at hf
    obtain rfl := Option.some.inj hf
    exact absurd hask (by decide)

-- The rekeying timer with the sample station as the only one: it is counted once, and the group
-- waits in SETKEYS for its confirmation.
set_option maxRecDepth 100000 in
theorem group_rekey_accounting_sample :
    ∃ r W, sampleRun (sampleAssoc ++ [sampleMsg2 1, sampleMsg4 2]) = some r ∧
      Step .transparent r.2 .rekeyGtk W ∧ (W.group 0).gKeyDoneStations = 1 ∧
      (W.group 0).state = .setkeys ∧ (W.group 0).gKeyDoneStations = W.updatingStations 0 ∧
      ((W.group 0).state = .setkeys → ∀ env step W', wpaGroupSmStep .transparent env step W 0 = some W' →
        ((W'.group 0).state = .setkeysdone ↔
          ∀ i sm, W.sta i = some sm → sm.group = 0 → sm.gUpdateStationKeys = false)) := by
  have hsome : ((sampleRun (sampleAssoc ++ [sampleMsg2 1, sampleMsg4 2])).bind fun r =>
      (exec .transparent .benign 20 r.2 .rekeyGtk).map fun W =>
        (r.2.groupIds, (W.group 0).gKeyDoneStations, (W.group 0).state)) =
      some ([0], 1, .setkeys) := by
    rfl
  obtain ⟨r, hr, hsome⟩ := Option.bind_eq_some_iff.mp hsome
  obtain ⟨W, hs, heq⟩ := Option.map_eq_some_iff.mp hsome
  simp only [Prod.mk.injEq] at heq
  obtain ⟨hids, hcount, hstate⟩ := heq
  have hquiet := sampleHandshake_undisturbed hr
  have hstep : Step .transparent r.2 .rekeyGtk W := ⟨_, _, hs⟩
  -- there is one group
  have hlast : LastGroupOnly r.2 := by
    intro i sm hi _
    have hgroup := (run_tallied (run_sampleRun hr) hquiet).registered.group i sm hi
    rw [hids, List.mem_singleton] at hgroup
    rw [hids, hgroup]
    rfl
  refine ⟨r, W, hr, hstep, hcount, hstate, group_rekey_accounting ((run_sampleRun hr).step hstep) ?_ 0⟩
  intro x hx
  rcases List.mem_cons.mp hx with rfl | hx
  · exact hlast
  · exact hquiet x hx

-- With a second group, the station of the first one is counted once for each group.
set_option maxRecDepth 100000 in
theorem rekey_counts_twice :
    ∃ r, sampleRun (sampleAssoc ++ [sampleMsg2 1, sampleMsg4 2, .staInit 1 3 1, .staSetVlan 1 5,
        .rekeyGtk]) = some r ∧ Run .transparent r.1 r.2 ∧
      (r.2.group 0).gKeyDoneStations = 2 ∧ r.2.updatingStations 0 = 1 := by
  have hsome : ((sampleRun (sampleAssoc ++ [sampleMsg2 1, sampleMsg4 2, .staInit 1 3 1,
      .staSetVlan 1 5, .rekeyGtk])).map fun r =>
        ((r.2.group 0).gKeyDoneStations, r.2.updatingStations 0)) = some (2, 1) := by
    rfl
  obtain ⟨r, hr, heq⟩ := Option.map_eq_some_iff.mp hsome
  simp only [Prod.mk.injEq] at heq
  exact ⟨r, hr, run_sampleRun hr, heq⟩

end WpaSupplicant.Authenticator
