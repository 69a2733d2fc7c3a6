import WpaSupplicant.Lib.Tally
import WpaSupplicant.Authenticator.PortControl.Lemmas

namespace WpaSupplicant.Authenticator

open Lib.Octets Lib.Window Lib.Effect Lib.Loop Lib.Tally KeyData

def Sta.updatingIn (g : ℕ) (sm : Sta) : Bool := sm.group = g && sm.gUpdateStationKeys

namespace Auth

def updatingIn (W : Auth) (g i : ℕ) : Bool := (W.sta i).any (Sta.updatingIn g)

-- The number of station machines that belong to the group and have `GUpdateStationKeys` set
def updatingStations (W : Auth) (g : ℕ) : ℕ := W.staIds.countP (W.updatingIn g)

-- What `GKeyDoneStations` counts beyond them
def surplus (W : Auth) (g : ℕ) : ℤ := (W.group g).gKeyDoneStations - W.updatingStations g

end Auth

-- Every station is visited once by `for_each_sta`, and belongs to a group.
structure Registered (W : Auth) : Prop where
  nodup : W.staIds.Nodup
  listed : ∀ i, i ∈ W.staIds ↔ (W.sta i).isSome = true
  group : ∀ i sm, W.sta i = some sm → sm.group ∈ W.groupIds
  groups : W.groupIds.Nodup
  bound : ∀ g ∈ W.groupIds, g < W.groupIds.length
  first : ∃ l, W.groupIds = 0 :: l

theorem Registered.mem {W : Auth} (h : Registered W) {i : ℕ} {sm : Sta} (hi : W.sta i = some sm) :
    i ∈ W.staIds := (h.listed i).mpr (by simp [hi])

section Changes

variable {W W' : Auth} {i : ℕ} {sm : Sta}

theorem surplus_same (hsta : W'.sta = W.sta) (hids : W'.staIds = W.staIds)
    (hcount : ∀ g, (W'.group g).gKeyDoneStations = (W.group g).gKeyDoneStations) (g : ℕ) :
    W'.surplus g = W.surplus g := by
  have hupdating : W'.updatingIn g = W.updatingIn g := by
    funext i
    simp only [Auth.updatingIn, hsta]
  simp only [Auth.surplus, Auth.updatingStations, hcount, hids, hupdating]

theorem Registered.same (h : Registered W) (hsta : W'.sta = W.sta) (hids : W'.staIds = W.staIds)
    (hgroups : W'.groupIds = W.groupIds) : Registered W' := by
  obtain ⟨h1, h2, h3, h4, h5, h6⟩ := h
  rw [← hids] at h1 h2
  rw [← hsta] at h2 h3
  rw [← hgroups] at h3 h4 h5 h6
  exact ⟨h1, h2, h3, h4, h5, h6⟩

theorem updatingIn_toNat (sm : Sta) : ((sm.updatingIn sm.group).toNat : ℤ) = sm.pendingUpdate := by
  cases hflag : sm.gUpdateStationKeys
  · simp [Sta.updatingIn, Sta.pendingUpdate, hflag]
  · simp [Sta.updatingIn, Sta.pendingUpdate, hflag]

theorem Registered.put (h : Registered W) (hi : W.sta i = some sm) (g : ℕ) {c : Ctx}
    (hgroup : c.sm.group = sm.group) : Registered (W.put i g c) := by
  refine ⟨h.nodup, fun j => ?_, fun j smj hj => ?_, h.groups, h.bound, h.first⟩
  · by_cases hji : j = i
    · subst hji
      simpa [Auth.put] using h.mem hi
    · simpa [Auth.put, hji] using h.listed j
  · by_cases hji : j = i
    · subst hji
      obtain rfl : c.sm = smj := by simpa [Auth.put] using hj
      rw [hgroup]
      exact h.group j sm hi
    · exact h.group j smj (by simpa [Auth.put, hji] using hj)

theorem surplus_put (h : Registered W) (hi : W.sta i = some sm) {c : Ctx}
    (hgroup : c.sm.group = sm.group) (g : ℕ) :
    (W.put i sm.group c).surplus g = W.surplus g + if g = sm.group then
      (c.grp.gKeyDoneStations - c.sm.pendingUpdate) -
        ((W.group sm.group).gKeyDoneStations - sm.pendingUpdate) else 0 := by
  have hchange := countP_change h.nodup (h.mem hi) (p := W.updatingIn g)
    (q := (W.put i sm.group c).updatingIn g)
    fun j hj => by simp [Auth.updatingIn, Auth.put, hj]
  have hp : W.updatingIn g i = sm.updatingIn g := by simp [Auth.updatingIn, hi]
  have hq : (W.put i sm.group c).updatingIn g i = c.sm.updatingIn g := by
    simp [Auth.updatingIn, Auth.put]
  rw [hp, hq] at hchange
  by_cases hg : g = sm.group
  · subst hg
    have h1 := updatingIn_toNat sm
    have h2 := updatingIn_toNat c.sm
    rw [hgroup] at h2
    have hcount : (W.put i sm.group c).group sm.group = c.grp := by simp [Auth.put]
    simp only [Auth.surplus, Auth.updatingStations, hcount, if_true]
    change c.grp.gKeyDoneStations - (W.staIds.countP ((W.put i sm.group c).updatingIn sm.group) : ℤ) = _
    omega
  · have h1 : sm.updatingIn g = false := by simp [Sta.updatingIn, Ne.symm hg]
    have h2 : c.sm.updatingIn g = false := by simp [Sta.updatingIn, hgroup, Ne.symm hg]
    rw [h1, h2] at hchange
    have hcount : (W.put i sm.group c).group g = W.group g := by simp [Auth.put, hg]
    simp only [Auth.surplus, Auth.updatingStations, hcount, if_neg hg]
    change _ - (W.staIds.countP ((W.put i sm.group c).updatingIn g) : ℤ) = _
    omega

theorem surplus_moves (h : Registered W) (hi : W.sta i = some sm) {c : Ctx}
    (hgroup : c.sm.group = sm.group) (hmoves : Moves sm (W.group sm.group) c.sm c.grp) (g : ℕ) :
    (W.put i sm.group c).surplus g = W.surplus g := by
  rw [surplus_put h hi hgroup, hmoves.count]
  simp

theorem modSta_registered (h : Registered W) (i : ℕ) (f : Sta → Sta)
    (hf : ∀ sm, (f sm).group = sm.group) : Registered (W.modSta i f) := by
  cases hi : W.sta i with
  | none => rwa [Auth.modSta_none hi]
  | some sm =>
    rw [modSta_eq_put hi]
    exact h.put hi _ (hf sm)

theorem modSta_surplus (h : Registered W) (i : ℕ) (f : Sta → Sta)
    (hf : ∀ sm, (f sm).group = sm.group ∧ (f sm).gUpdateStationKeys = sm.gUpdateStationKeys)
    (g : ℕ) : (W.modSta i f).surplus g = W.surplus g := by
  cases hi : W.sta i with
  | none => rw [Auth.modSta_none hi]
  | some sm =>
    rw [modSta_eq_put hi, surplus_put h hi (hf sm).1]
    simp [Sta.pendingUpdate, (hf sm).2, Auth.ctx]

end Changes

section Step

variable {cr : Crypto} {env : Env} {W W' : Auth} {i : ℕ}

theorem unmarked_count (W : Auth) (g : ℕ) :
    (W.unmarked.group g).gKeyDoneStations = (W.group g).gKeyDoneStations := by
  by_cases hg : g = 0
  · subst hg
    simp [Auth.unmarked, Auth.modGroup]
  · simp [Auth.unmarked, Auth.modGroup, hg]

theorem setkeysdone_count (W : Auth) (k g : ℕ) :
    ((W.withGroup k (wpaGroupSetkeysdone W.ap)).group g).gKeyDoneStations =
      (W.group g).gKeyDoneStations := by
  by_cases hg : g = k
  · subst hg
    simp [Auth.withGroup, wpaGroupSetkeysdone_grp]
  · simp [Auth.withGroup, hg]

theorem groupRound_count (W : Auth) (i g : ℕ) :
    ((groupRound W i).group g).gKeyDoneStations = (W.group g).gKeyDoneStations := by
  rw [groupRound]
  split
  · rfl
  split
  · exact setkeysdone_count W _ g
  · rfl

theorem smRound_surplus (h : Registered W) (i : ℕ) :
    Registered (smRound cr env i W) ∧ ∀ g, (smRound cr env i W).surplus g = W.surplus g := by
  have hmove := groupRound_move (staRound cr env W i) i
  have h0 : Registered W.unmarked := h.same rfl rfl rfl
  have hs0 := @surplus_same W W.unmarked rfl rfl (unmarked_count W)
  have h1 : Registered (staRound cr env W i) ∧ ∀ g, (staRound cr env W i).surplus g = W.surplus g := by
    cases hi : W.sta i with
    | none =>
      rw [staRound_none hi]
      exact ⟨h0, hs0⟩
    | some sm =>
      rw [staRound_some hi]
      have hi0 : W.unmarked.sta i = some sm := hi
      obtain ⟨hfixed, hmoves⟩ := @roundFn_moves cr env W.ap (W.unmarked.ctx sm)
      have hgroup : (roundFn cr env W.ap (W.unmarked.ctx sm)).sm.group = sm.group :=
        congrArg StaFixed.group hfixed
      exact ⟨h0.put hi0 _ hgroup, fun g => (surplus_moves h0 hi0 hgroup hmoves g).trans (hs0 g)⟩
  refine ⟨h1.1.same hmove.sta hmove.staIds hmove.groupIds, fun g => ?_⟩
  exact (surplus_same hmove.sta hmove.staIds (groupRound_count _ i) g).trans (h1.2 g)

theorem wpaSmStep_surplus {fuel : ℕ} (hrest : Resting W) (h : Registered W)
    (hs : wpaSmStep cr env fuel W i = some W') :
    Registered W' ∧ ∀ g, W'.surplus g = W.surplus g := by
  cases hi : W.sta i with
  | none =>
    obtain rfl := wpaSmStep_none hi hs
    exact ⟨h, fun _ => rfl⟩
  | some sm =>
    obtain ⟨W1, hrounds, rfl⟩ := wpaSmStep_rounds hrest.noRekey hrest.idle hi hs
    have h0 : Registered (W.modSta i (Sta.looping true)) :=
      modSta_registered h i _ fun _ => rfl
    have hs0 := modSta_surplus h i (Sta.looping true) fun _ => ⟨rfl, rfl⟩
    obtain ⟨⟨h1, hs1⟩, -⟩ := hrounds.rule
      (I := fun V => Registered V ∧ ∀ g, V.surplus g = W.surplus g) (T := fun _ => True)
      (fun V hV => by
        obtain ⟨h2, hs2⟩ := @smRound_surplus cr env V hV.1 i
        exact ⟨⟨h2, fun g => (hs2 g).trans (hV.2 g)⟩, trivial⟩)
      ⟨h0, hs0⟩
    refine ⟨modSta_registered h1 i _ fun _ => rfl, fun g => ?_⟩
    exact (modSta_surplus h1 i (Sta.looping false) (fun _ => ⟨rfl, rfl⟩) g).trans (hs1 g)

end Step

section Sweep

variable {cr : Crypto} {env : Env} {D : ℕ → Evidence} {L : ℕ} {V V' W W' : Auth} {i g fuel : ℕ}

-- `wpa_rekey_gtk` at work, when all stations in PTKINITDONE belong to the group `L`
structure Sweeping (D : ℕ → Evidence) (L : ℕ) (V : Auth) : Prop where
  port : Port D V
  registered : Registered V
  done : ∀ i sm, V.sta i = some sm → sm.ptkState = .ptkinitdone → sm.group = L

-- The stations that are marked belong to `L`.
def MarkedIn (L : ℕ) (V : Auth) : Prop :=
  ∀ i sm, V.sta i = some sm → sm.gUpdateStationKeys = true → sm.group = L

-- The visit of `wpa_group_update_sta`: a mark the station has had is not counted off.
structure Visited (D : ℕ → Evidence) (L : ℕ) (V : Auth) (i : ℕ) (V' : Auth) : Prop where
  sweeping : Sweeping D L V'
  resting : Resting V'
  groupIds : V'.groupIds = V.groupIds
  other : ∀ j, j ≠ i → V'.sta j = V.sta j
  surplus : ∀ g, V'.surplus g = V.surplus g + (V.updatingIn g i).toNat
  marked : ∀ sm, V'.sta i = some sm → sm.gUpdateStationKeys = true → sm.group = L

theorem surplus_mark (h : Registered V) {sm : Sta} (hi : V.sta i = some sm) {c : Ctx}
    (hgroup : c.sm.group = sm.group)
    (hcount : c.grp.gKeyDoneStations - c.sm.pendingUpdate = (V.group sm.group).gKeyDoneStations)
    (g : ℕ) : (V.put i sm.group c).surplus g = V.surplus g + (V.updatingIn g i).toNat := by
  have hup : V.updatingIn g i = sm.updatingIn g := by simp [Auth.updatingIn, hi]
  rw [surplus_put h hi hgroup, hup, hcount]
  by_cases hg : g = sm.group
  · subst hg
    rw [if_pos rfl, updatingIn_toNat]
    omega
  · have hno : sm.updatingIn g = false := by simp [Sta.updatingIn, Ne.symm hg]
    simp [hg, hno]

def Ctx.marked (c : Ctx) : Ctx :=
  { c with
    sm := c.sm.updating true
    grp := { c.grp with gKeyDoneStations := c.grp.gKeyDoneStations + 1 } }

theorem marked_eq {sm : Sta} (hi : V.sta i = some sm) :
    (V.modGroup sm.group fun g => { g with gKeyDoneStations := g.gKeyDoneStations + 1 }).modSta i
      (Sta.updating true) = V.put i sm.group (V.ctx sm).marked := by
  simp [Auth.modSta, Auth.modGroup, Auth.put, Auth.ctx, Ctx.marked, hi]

theorem wpaGroupUpdateSta_visited (hrest : Resting V) (h : Sweeping D L V)
    (hs : wpaGroupUpdateSta (wpaSmStep cr env fuel) V i = some V') : Visited D L V i V' := by
  rcases wpaGroupUpdateSta_cases hs with ⟨hi, rfl⟩ | ⟨sm, hi, hst, rfl⟩ | ⟨sm, hi, hst, hstep⟩
  · exact ⟨h, hrest, rfl, fun _ _ => rfl, fun g => by simp [Auth.updatingIn, hi],
      fun sm hsm => by simp [hi] at hsm⟩
  · have hput := modSta_eq_put hi (Sta.updating false)
    have hi' : (V.modSta i (Sta.updating false)).sta i = some (sm.updating false) := by
      simp [Auth.modSta, hi]
    have hother (j : ℕ) (hj : j ≠ i) : (V.modSta i (Sta.updating false)).sta j = V.sta j := by
      simp [Auth.modSta, hj]
    refine ⟨⟨h.port.modSta i _ fun _ => rfl, modSta_registered h.registered i _ fun _ => rfl,
      fun j smj hj hd => ?_⟩, modSta_resting hrest i _ fun _ => rfl, rfl, hother, fun g => ?_,
      fun sm' hsm' hflag => ?_⟩
    · by_cases hji : j = i
      · subst hji
        obtain rfl := Option.some.inj (hi'.symm.trans hj)
        exact absurd hd hst
      · exact h.done j smj ((hother j hji).symm.trans hj) hd
    · rw [hput]
      exact surplus_mark h.registered hi rfl (by simp [Sta.updating, Sta.pendingUpdate, Auth.ctx]) g
    · obtain rfl := Option.some.inj (hi'.symm.trans hsm')
      simp [Sta.updating] at hflag
  · have hL := h.done i sm hi hst
    have hrest1 := updatingTrue_resting hrest i sm.group
    have hport1 := (h.port.move (modGroup_move V sm.group
      (fun g => { g with gKeyDoneStations := g.gKeyDoneStations + 1 })
      (.inr ⟨rfl, BitVec.le_refl _⟩))).modSta i (Sta.updating true) fun _ => rfl
    rw [marked_eq hi] at hstep hrest1 hport1
    have hi1 : (V.put i sm.group (V.ctx sm).marked).sta i = some (sm.updating true) := by
      simp [Auth.put, Ctx.marked, Auth.ctx]
    have hreg1 : Registered (V.put i sm.group (V.ctx sm).marked) := h.registered.put hi _ rfl
    have hsurplus1 := surplus_mark (c := (V.ctx sm).marked) h.registered hi rfl
      (by simp [Ctx.marked, Sta.updating, Sta.pendingUpdate, Auth.ctx])
    obtain ⟨hrest', hframe⟩ := wpaSmStep_resting hrest1 hstep
    obtain ⟨hreg', hsurplus'⟩ := wpaSmStep_surplus hrest1 hreg1 hstep
    have hother (j : ℕ) (hj : j ≠ i) : V'.sta j = V.sta j := by
      rw [hframe.other j hj]
      simp [Auth.put, hj]
    -- the machines leave the group of the station alone
    have hgroup (sm' : Sta) (hsm' : V'.sta i = some sm') : sm'.group = L := by
      have hfixed := hframe.fixed
      rw [hi1, hsm', Option.map_some, Option.map_some] at hfixed
      exact (congrArg StaFixed.group (Option.some.inj hfixed)).trans hL
    have hat := ((hport1.at hrest1 i).mono fun sm hsm => hsm.stepping).step hstep
    refine ⟨⟨hat.port, hreg', fun j smj hj hd => ?_⟩, hrest', hframe.groupIds, hother,
      fun g => (hsurplus' g).trans (hsurplus1 g), fun sm' hsm' _ => hgroup sm' hsm'⟩
    by_cases hji : j = i
    · subst hji
      exact hgroup smj hj
    · exact h.done j smj ((hother j hji).symm.trans hj) hd

theorem wpaGroupUpdateSta_sweep (l : List ℕ) (hnodup : l.Nodup) (hrest : Resting V)
    (h : Sweeping D L V)
    (hs : l.foldlM (wpaGroupUpdateSta (wpaSmStep cr env fuel)) V = some V') :
    Sweeping D L V' ∧ Resting V' ∧ V'.groupIds = V.groupIds ∧ (∀ j, j ∉ l → V'.sta j = V.sta j) ∧
      (∀ g, V'.surplus g = V.surplus g + l.countP (V.updatingIn g)) ∧
      ∀ i ∈ l, ∀ sm, V'.sta i = some sm → sm.gUpdateStationKeys = true → sm.group = L := by
  induction l generalizing V with
  | nil =>
    obtain rfl : V = V' := by simpa using hs
    exact ⟨h, hrest, rfl, fun _ _ => rfl, fun g => by simp, fun i hi => by simp at hi⟩
  | cons a l ih =>
    obtain ⟨ha, hnodup⟩ := List.nodup_cons.mp hnodup
    rw [List.foldlM_cons] at hs
    obtain ⟨U, hU, hs⟩ := Option.bind_eq_some_iff.mp hs
    have hvisit := wpaGroupUpdateSta_visited hrest h hU
    obtain ⟨h1, h2, h3, h4, h5, h6⟩ := ih hnodup hvisit.resting hvisit.sweeping hs
    refine ⟨h1, h2, h3.trans hvisit.groupIds, fun j hj => ?_, fun g => ?_, fun i hi sm hsm hm => ?_⟩
    · have hja : j ≠ a := fun hja => hj (hja ▸ List.mem_cons_self)
      rw [h4 j fun hjl => hj (List.mem_cons_of_mem _ hjl), hvisit.other j hja]
    · -- the stations of the rest of the list have not been touched
      have hrestl : l.countP (U.updatingIn g) = l.countP (V.updatingIn g) := by
        refine List.countP_congr fun b hb => ?_
        rw [Auth.updatingIn, Auth.updatingIn, hvisit.other b fun hba => ha (hba ▸ hb)]
      rw [h5 g, hvisit.surplus g, hrestl, List.countP_cons]
      cases hup : V.updatingIn g a
      · simp
      · simp
        omega
    · rcases List.mem_cons.mp hi with rfl | hi
      · exact hvisit.marked sm ((h4 i ha).symm.trans hsm) hm
      · exact h6 i hi sm hsm hm

theorem MarkedIn.updatingStations (h : MarkedIn L V) (hg : g ≠ L) : V.updatingStations g = 0 := by
  rw [Auth.updatingStations, List.countP_eq_zero]
  intro i _ hup
  obtain ⟨sm, hi, hsm⟩ := (Option.any_eq_true ..).mp hup
  simp only [Sta.updatingIn, Bool.and_eq_true, decide_eq_true_eq] at hsm
  exact hg (hsm.1.symm.trans (h i sm hi hsm.2))

theorem Registered.updatingStations (h : Registered V) (hg : g ∉ V.groupIds) :
    V.updatingStations g = 0 := by
  rw [Auth.updatingStations, List.countP_eq_zero]
  intro i _ hup
  obtain ⟨sm, hi, hsm⟩ := (Option.any_eq_true ..).mp hup
  simp only [Sta.updatingIn, Bool.and_eq_true, decide_eq_true_eq] at hsm
  exact hg (hsm.1 ▸ h.group i sm hi)

-- `wpa_group_setkeys` sets the account of its own group right. The other groups do not get back
-- what their stations were marked with.
theorem wpaGroupSetkeys_sweep (hrek : Rekeying g W) (h : Sweeping D L W)
    (hs : wpaGroupSetkeys cr env (wpaSmStep cr env fuel) W g = some W') :
    Sweeping D L W' ∧ Resting W' ∧ W'.groupIds = W.groupIds ∧ MarkedIn L W' ∧ W'.surplus g = 0 ∧
      ∀ k, k ≠ g → W'.surplus k = W.surplus k + W.updatingStations k := by
  have hmove := @setkeysStart_move cr env W g
  have hrest1 := @setkeysStart_resting cr env W g hrek
  obtain ⟨-, -, -, hcount, -⟩ := @wpaGroupSetkeysStart_grp cr env W.ap (W.groupCtx g)
  rw [wpaGroupSetkeys] at hs
  generalize hW1 : W.withGroup g (wpaGroupSetkeysStart cr env W.ap) = W1 at hmove hrest1 hs
  have hg1 : (W1.group g).gKeyDoneStations = 0 := by
    rw [← hW1]
    simp only [Auth.withGroup, Function.update_self]
    exact hcount
  have hother1 (k : ℕ) (hk : k ≠ g) : W1.group k = W.group k := by
    rw [← hW1]
    simp [Auth.withGroup, hk]
  have hup1 (k : ℕ) : W1.updatingIn k = W.updatingIn k := by
    funext i
    simp only [Auth.updatingIn, hmove.sta]
  have hstations1 (k : ℕ) : W1.updatingStations k = W.updatingStations k := by
    rw [Auth.updatingStations, Auth.updatingStations, hup1, hmove.staIds]
  have h1 : Sweeping D L W1 := ⟨h.port.move hmove,
    h.registered.same hmove.sta hmove.staIds hmove.groupIds, by rw [hmove.sta]; exact h.done⟩
  obtain ⟨h', hrest', hids', hsta', hsurplus, hmarked⟩ :=
    wpaGroupUpdateSta_sweep W1.staIds h1.registered.nodup hrest1 h1 hs
  have hlisted : ∀ i sm, W'.sta i = some sm → i ∈ W1.staIds := by
    intro i sm hi
    by_contra hout
    exact hout (h1.registered.mem ((hsta' i hout).symm.trans hi))
  refine ⟨h', hrest', hids'.trans hmove.groupIds,
    fun i sm hi hm => hmarked i (hlisted i sm hi) sm hi hm, ?_, fun k hk => ?_⟩
  · have hsum := hsurplus g
    change W'.surplus g = W1.surplus g + W1.updatingStations g at hsum
    rw [hsum, Auth.surplus, hg1]
    omega
  · have hsum := hsurplus k
    change W'.surplus k = W1.surplus k + W1.updatingStations k at hsum
    rw [hsum, Auth.surplus, Auth.surplus, hother1 k hk, hstations1 k]

-- `wpa_rekey_gtk` at work on group `g`, behind the groups `before` and ahead of the groups `rest`
structure Rekeyed (D : ℕ → Evidence) (L : ℕ) (before rest : List ℕ) (g : ℕ) (V : Auth) : Prop where
  sweeping : Sweeping D L V
  groupIds : V.groupIds = before ++ g :: rest
  balanced : ∀ k, k ∉ g :: rest → V.surplus k = 0
  marked : before ≠ [] → MarkedIn L V
  current : (V.group g).gtkReKey = false → V.surplus g = 0 ∧ MarkedIn L V

variable {before rest : List ℕ}

theorem Rekeyed.same (h : Rekeyed D L before rest g V) (hmove : GroupsMove V V')
    (hcount : ∀ k, (V'.group k).gKeyDoneStations = (V.group k).gKeyDoneStations)
    (hrekey : (V'.group g).gtkReKey = false → (V.group g).gtkReKey = false) :
    Rekeyed D L before rest g V' := by
  have hsurplus := surplus_same hmove.sta hmove.staIds hcount
  have hmarked (hm : MarkedIn L V) : MarkedIn L V' := by
    rw [MarkedIn, hmove.sta]
    exact hm
  refine ⟨⟨h.sweeping.port.move hmove, h.sweeping.registered.same hmove.sta hmove.staIds hmove.groupIds,
    by rw [hmove.sta]; exact h.sweeping.done⟩, hmove.groupIds.trans h.groupIds,
    fun k hk => (hsurplus k).trans (h.balanced k hk), fun hb => hmarked (h.marked hb), fun hr => ?_⟩
  obtain ⟨h1, h2⟩ := h.current (hrekey hr)
  exact ⟨(hsurplus g).trans h1, hmarked h2⟩

theorem Rekeyed.setkeys (hL : L ∉ before) (hrek : Rekeying g V) (h : Rekeyed D L before rest g V)
    (hs : wpaGroupSetkeys cr env (wpaSmStep cr env fuel) V g = some V') :
    Rekeyed D L before rest g V' := by
  obtain ⟨h1, -, hids, hmarked, hg, hother⟩ := wpaGroupSetkeys_sweep hrek h.sweeping hs
  refine ⟨h1, hids.trans h.groupIds, fun k hk => ?_, fun _ => hmarked, fun _ => ⟨hg, hmarked⟩⟩
  have hkg : k ≠ g := fun hkg => hk (hkg ▸ List.mem_cons_self)
  -- a group that is settled has no marked station, unless it is `L`
  have hzero : V.updatingStations k = 0 := by
    by_cases hkb : k ∈ before
    · exact (h.marked (List.ne_nil_of_mem hkb)).updatingStations fun hkL => hL (hkL ▸ hkb)
    refine h.sweeping.registered.updatingStations ?_
    rw [h.groupIds, List.mem_append, not_or]
    exact ⟨hkb, hk⟩
  rw [hother k hkg, h.balanced k hk, hzero]
  simp

theorem wpaRekeyGtkLoop_rekeyed {rounds : ℕ} (hL : L ∉ before) (hrek : Rekeying g V)
    (h : Rekeyed D L before rest g V) (hs : wpaRekeyGtkLoop cr env fuel rounds V g = some V') :
    Rekeyed D L before rest g V' ∧ Resting V' := by
  refine wpaRekeyGtkLoop_rule (I := Rekeyed D L before rest g) ?_ ?_ ?_ hrek h hs
  · intro U hU
    refine hU.same (modGroup_move U g _ (.inr ⟨rfl, BitVec.le_refl _⟩)) (fun k => ?_) fun hr => ?_
    · by_cases hk : k = g
      · subst hk
        simp [Auth.modGroup]
      · simp [Auth.modGroup, hk]
    · simpa [Auth.modGroup] using hr
  · intro U hU _ _
    refine hU.same (setkeysdone_move U g) (setkeysdone_count U g) fun hr => ?_
    simpa [Auth.withGroup, wpaGroupSetkeysdone_grp] using hr
  · exact fun U U' hrekU hU _ hsU => hU.setkeys hL hrekU hsU

-- The groups one after the other. `L` is the last of them, so that its account, too, is set right
-- after all the others have been worked on.
theorem wpaRekeyGtk_fold (rest : List ℕ) {before : List ℕ} (hnodup : (before ++ rest).Nodup)
    (hlast : (before ++ rest).getLast? = some L) (hrest : Resting V) (h : Sweeping D L V)
    (hids : V.groupIds = before ++ rest) (hbalanced : ∀ k, k ∉ rest → V.surplus k = 0)
    (hmarked : before ≠ [] → MarkedIn L V)
    (hs : rest.foldlM (fun W g => wpaRekeyGtkLoop cr env fuel fuel
      (W.modGroup g fun grp => { grp with gtkReKey := true }) g) V = some V') :
    Registered V' ∧ ∀ k, V'.surplus k = 0 := by
  induction rest generalizing before V with
  | nil =>
    obtain rfl : V = V' := by simpa using hs
    exact ⟨h.registered, fun k => hbalanced k (by simp)⟩
  | cons g rest ih =>
    rw [List.foldlM_cons] at hs
    obtain ⟨U, hU, hs⟩ := Option.bind_eq_some_iff.mp hs
    have hLrest : L ∈ g :: rest := by
      rw [List.getLast?_append_of_ne_nil _ (by simp)] at hlast
      exact List.mem_of_getLast? hlast
    have hL : L ∉ before := fun hb => (List.nodup_append.mp hnodup).2.2 L hb L hLrest rfl
    have hmark : Rekeyed D L before rest g (V.modGroup g fun grp => { grp with gtkReKey := true }) := by
      have hmove := modGroup_move V g (fun grp => { grp with gtkReKey := true })
        (.inr ⟨rfl, BitVec.le_refl _⟩)
      have hsurplus := surplus_same hmove.sta hmove.staIds (W := V) fun k => by
        by_cases hk : k = g
        · subst hk
          simp [Auth.modGroup]
        · simp [Auth.modGroup, hk]
      refine ⟨⟨h.port.move hmove, h.registered.same rfl rfl rfl, h.done⟩, hids,
        fun k hk => (hsurplus k).trans (hbalanced k hk), hmarked, fun hr => ?_⟩
      simp [Auth.modGroup] at hr
    obtain ⟨h1, hrest1⟩ := wpaRekeyGtkLoop_rekeyed hL (gtkReKey_rekeying hrest g) hmark hU
    obtain ⟨hg, hm⟩ := h1.current (hrest1.noRekey g).2.1
    have hnodup1 : (before ++ [g] ++ rest).Nodup := by simpa using hnodup
    refine ih hnodup1 (by simpa using hlast) hrest1
      h1.sweeping (by simpa using h1.groupIds) (fun k hk => ?_) (fun _ => hm) hs
    by_cases hkg : k = g
    · exact hkg ▸ hg
    · exact h1.balanced k (by simp [hkg, hk])

end Sweep

end WpaSupplicant.Authenticator
