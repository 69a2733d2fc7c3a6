import Mathlib.Algebra.Order.BigOperators.Group.Finset
import WpaSupplicant.Authenticator.Termination.Lemmas

namespace WpaSupplicant.Authenticator

open Lib.Octets Lib.Window KeyData

section Work

def Group.work (stations : ℕ) (g : Group) : ℕ :=
  if g.gInit then 0
  else (if g.state = .setkeysdone then 0 else 1) + if g.gtkReKey then 2 + 7 * stations else 0

def Auth.staWork (W : Auth) (j : ℕ) : ℕ := (W.sta j).elim 0 fun sm => sm.drive.work

def Auth.groupWork (W : Auth) (g : ℕ) : ℕ := (W.group g).work W.staIds.length

def Auth.work (S G : Finset ℕ) (W : Auth) : ℕ := ∑ j ∈ S, W.staWork j + ∑ g ∈ G, W.groupWork g

-- The stations and groups that a step can reach are among them.
structure Area (S G : Finset ℕ) (W : Auth) : Prop where
  stations : ∀ j ∈ W.staIds, j ∈ S
  groups : ∀ j ∈ S, ∀ sm, W.sta j = some sm → sm.group ∈ G

structure SamePlaces (W W' : Auth) : Prop where
  staIds : W'.staIds = W.staIds
  group : ∀ j, (W'.sta j).map Sta.group = (W.sta j).map Sta.group

variable {S G : Finset ℕ} {W W' : Auth}

theorem SamePlaces.refl (W : Auth) : SamePlaces W W := ⟨rfl, fun _ => rfl⟩

theorem SamePlaces.trans {W'' : Auth} (h : SamePlaces W W') (h' : SamePlaces W' W'') : SamePlaces W W'' :=
  ⟨h'.staIds.trans h.staIds, fun j => (h'.group j).trans (h.group j)⟩

theorem Area.same (h : Area S G W) (hsame : SamePlaces W W') : Area S G W' := by
  refine ⟨fun j hj => h.stations j (by rwa [hsame.staIds] at hj), fun j hj sm' hsm' => ?_⟩
  have hgroup := hsame.group j
  rw [hsm', Option.map_some] at hgroup
  obtain ⟨sm, hsm, heq⟩ := Option.map_eq_some_iff.mp hgroup.symm
  rw [← heq]
  exact h.groups j hj sm hsm

theorem sum_change (f f' : ℕ → ℕ) {i : ℕ} (hi : i ∈ S) (h : ∀ j, j ≠ i → f' j = f j) :
    ∑ j ∈ S, f' j + f i = ∑ j ∈ S, f j + f' i := by
  have hrest : ∑ j ∈ S.erase i, f' j = ∑ j ∈ S.erase i, f j :=
    Finset.sum_congr rfl fun j hj => h j (Finset.ne_of_mem_erase hj)
  rw [← Finset.add_sum_erase S f hi, ← Finset.add_sum_erase S f' hi, hrest]
  omega

theorem groupWork_of_fixed (hids : W'.staIds = W.staIds) (hfixed : ∀ k, (W'.group k).fixed = (W.group k).fixed)
    (g : ℕ) : W'.groupWork g = W.groupWork g := by
  have hinit := congrArg GroupFixed.gInit (hfixed g)
  have hrekey := congrArg GroupFixed.gtkReKey (hfixed g)
  have hstate := congrArg GroupFixed.state (hfixed g)
  simp only [Group.fixed] at hinit hrekey hstate
  simp only [Auth.groupWork, Group.work, hids, hinit, hrekey, hstate]

theorem work_of_sta {i : ℕ} (hi : i ∈ S) (hids : W'.staIds = W.staIds)
    (hfixed : ∀ k, (W'.group k).fixed = (W.group k).fixed) (hother : ∀ j, j ≠ i → W'.sta j = W.sta j) :
    W'.work S G + W.staWork i = W.work S G + W'.staWork i := by
  have hsum := sum_change W.staWork W'.staWork hi fun j hj => by
    rw [Auth.staWork, Auth.staWork, hother j hj]
  have hgroups : ∑ g ∈ G, W'.groupWork g = ∑ g ∈ G, W.groupWork g :=
    Finset.sum_congr rfl fun g _ => groupWork_of_fixed hids hfixed g
  rw [Auth.work, Auth.work, hgroups]
  omega

theorem work_of_group {g : ℕ} (hg : g ∈ G) (hids : W'.staIds = W.staIds) (hsta : W'.sta = W.sta)
    (hother : ∀ k, k ≠ g → W'.group k = W.group k) :
    W'.work S G + W.groupWork g = W.work S G + W'.groupWork g := by
  have hsum := sum_change W.groupWork W'.groupWork hg fun k hk => by
    rw [Auth.groupWork, Auth.groupWork, hother k hk, hids]
  have hstaWork : W'.staWork = W.staWork := by
    funext j
    rw [Auth.staWork, Auth.staWork, hsta]
  rw [Auth.work, Auth.work, hstaWork]
  omega

theorem staWork_some {i : ℕ} {sm : Sta} (h : W.sta i = some sm) : W.staWork i = sm.drive.work := by
  rw [Auth.staWork, h]
  rfl

theorem modSta_same (W : Auth) (i : ℕ) (f : Sta → Sta) (hf : ∀ sm, (f sm).group = sm.group) :
    SamePlaces W (W.modSta i f) := by
  refine ⟨rfl, fun j => ?_⟩
  by_cases hj : j = i
  · subst hj
    simp only [Auth.modSta, Function.update_self, Option.map_map]
    exact congrFun (congrArg _ (funext hf)) _
  · simp only [Auth.modSta, Function.update_of_ne hj]

theorem modSta_work {i : ℕ} (hi : i ∈ S) (W : Auth) (f : Sta → Sta) {k : ℕ}
    (hf : ∀ sm, (f sm).drive.work ≤ sm.drive.work + k) : (W.modSta i f).work S G ≤ W.work S G + k := by
  have hsum : (W.modSta i f).work S G + W.staWork i = W.work S G + (W.modSta i f).staWork i := by
    refine work_of_sta hi rfl (fun _ => rfl) fun j hj => ?_
    simp only [Auth.modSta, Function.update_of_ne hj]
  cases hsta : W.sta i with
  | none =>
    rw [Auth.modSta_none hsta]
    omega
  | some sm =>
    have hle := hf sm
    have hafter : (W.modSta i f).sta i = some (f sm) := by
      simp only [Auth.modSta_some hsta, Function.update_self]
    rw [staWork_some hsta, staWork_some hafter] at hsum
    omega

theorem modGroup_same (W : Auth) (g : ℕ) (f : Group → Group) : SamePlaces W (W.modGroup g f) := ⟨rfl, fun _ => rfl⟩

theorem work_of_groups (hids : W'.staIds = W.staIds) (hsta : W'.sta = W.sta)
    (hfixed : ∀ k, (W'.group k).fixed = (W.group k).fixed) : W'.work S G = W.work S G := by
  have hgroups : ∑ g ∈ G, W'.groupWork g = ∑ g ∈ G, W.groupWork g :=
    Finset.sum_congr rfl fun g _ => groupWork_of_fixed hids hfixed g
  have hstaWork : W'.staWork = W.staWork := by
    funext j
    rw [Auth.staWork, Auth.staWork, hsta]
  rw [Auth.work, Auth.work, hgroups, hstaWork]

theorem modGroup_work (W : Auth) (g : ℕ) (f : Group → Group) (hf : (f (W.group g)).fixed = (W.group g).fixed) :
    (W.modGroup g f).work S G = W.work S G := by
  refine work_of_groups rfl rfl fun k => ?_
  by_cases hk : k = g
  · subst hk
    simpa only [Auth.modGroup, Function.update_self] using hf
  · simp only [Auth.modGroup, Function.update_of_ne hk]

end Work

section Round

variable {cr : Crypto} {env : Env} {S G : Finset ℕ} {W W' : Auth} {i : ℕ}

theorem staRound_same (W : Auth) (i : ℕ) : SamePlaces W (staRound cr env W i) := by
  cases hi : W.sta i with
  | none =>
    rw [staRound_none hi]
    exact ⟨rfl, fun _ => rfl⟩
  | some sm =>
    rw [staRound_some hi]
    refine ⟨rfl, fun j => ?_⟩
    by_cases hj : j = i
    · subst hj
      have hfixed := congrArg StaFixed.group (@roundFn_moves cr env W.ap (W.unmarked.ctx sm)).1
      simp only [Auth.put, Function.update_self, Option.map_some, hi]
      exact congrArg some hfixed
    · simp only [Auth.put, Function.update_of_ne hj]
      rfl

-- The two machines of the station: there is less work if the loop is to go on because of the station, and the mark of
-- the first group is clear.
theorem staRound_work (hi : i ∈ S) (W : Auth) :
    ((staRound cr env W i).group 0).changed = false ∧ (staRound cr env W i).work S G ≤ W.work S G ∧
      ∀ sm, (staRound cr env W i).sta i = some sm → sm.changed = true →
        (staRound cr env W i).work S G < W.work S G := by
  have hmark : (W.unmarked.group 0).changed = false := by
    simp only [Auth.unmarked, Auth.modGroup, Function.update_self]
  cases hsta : W.sta i with
  | none =>
    rw [staRound_none hsta]
    have hwork : W.unmarked.work S G = W.work S G := modGroup_work W 0 _ rfl
    refine ⟨hmark, le_of_eq hwork, fun sm hsm => ?_⟩
    rw [show W.unmarked.sta i = W.sta i from rfl, hsta] at hsm
    cases hsm
  | some sm =>
    obtain ⟨hgrp, hle, hlt⟩ := roundFn_pays cr env W.ap (W.unmarked.ctx sm)
    have hafter : (staRound cr env W i).sta i = some (roundFn cr env W.ap (W.unmarked.ctx sm)).sm := by
      rw [staRound_some hsta]
      simp only [Auth.put, Function.update_self]
    have hsum : (staRound cr env W i).work S G + W.staWork i =
        W.work S G + (staRound cr env W i).staWork i := by
      refine work_of_sta hi (staRound_same W i).staIds (staRound_group_fixed W i) fun j hj => ?_
      rw [staRound_some hsta]
      simp only [Auth.put, Function.update_of_ne hj]
      rfl
    rw [staWork_some hsta, staWork_some hafter] at hsum
    have hsm : (W.unmarked.ctx sm).sm = sm := rfl
    rw [hsm] at hle hlt
    refine ⟨?_, by omega, fun sm' hsm' hchanged => ?_⟩
    · rw [staRound_some hsta]
      by_cases hg : sm.group = 0
      · simp only [Auth.put, hg, Function.update_self]
        rw [hgrp, ← hmark, Auth.ctx, hg]
      · simp only [Auth.put, Function.update_of_ne (Ne.symm hg)]
        exact hmark
    · rw [hafter] at hsm'
      obtain rfl := Option.some.inj hsm'
      have := hlt hchanged
      omega

end Round

section Loop

variable {cr : Crypto} {env : Env} {S G : Finset ℕ} {n : ℕ}

-- The places stay, and at most `k` is added to the work.
structure Spends (S G : Finset ℕ) (k : ℕ) (W W' : Auth) : Prop where
  places : SamePlaces W W'
  work : W'.work S G ≤ W.work S G + k

theorem Spends.trans {k k' : ℕ} {W W' W'' : Auth} (h : Spends S G k W W') (h' : Spends S G k' W' W'') :
    Spends S G (k + k') W W'' := by
  have hle := h.work
  have hle' := h'.work
  exact ⟨h.places.trans h'.places, by omega⟩

theorem Spends.refl (W : Auth) : Spends S G 0 W W := ⟨.refl W, le_refl _⟩

theorem modSta_spends {i : ℕ} (hi : i ∈ S) (W : Auth) (f : Sta → Sta) (k : ℕ)
    (hf : ∀ sm, (f sm).group = sm.group ∧ (f sm).drive.work ≤ sm.drive.work + k) :
    Spends S G k W (W.modSta i f) :=
  ⟨modSta_same W i f fun sm => (hf sm).1, modSta_work hi W f fun sm => (hf sm).2⟩

def Stops (cr : Crypto) (env : Env) (S G : Finset ℕ) (n : ℕ) : Prop :=
  ∀ V j, Area S G V → j ∈ S → V.work S G < n →
    ∃ V', (∀ fuel, n ≤ fuel → wpaSmLoop cr env fuel V j = some V') ∧ Spends S G 0 V V'

theorem wpaSmStepWith_stops (h : Stops cr env S G n) {V : Auth} {j : ℕ} (harea : Area S G V) (hj : j ∈ S)
    (hwork : V.work S G < n) :
    ∃ V', (∀ fuel, n ≤ fuel → wpaSmStepWith (wpaSmLoop cr env fuel) V j = some V') ∧ Spends S G 0 V V' := by
  cases hsta : V.sta j with
  | none =>
    refine ⟨V, fun fuel _ => ?_, .refl V⟩
    simp only [wpaSmStepWith, hsta]
  | some sm =>
    by_cases hloop : sm.inStepLoop = true
    · refine ⟨V, fun fuel _ => ?_, .refl V⟩
      simp only [wpaSmStepWith, hsta, hloop, if_true]
    have hinto : Spends S G 0 V (V.modSta j fun sm => { sm with inStepLoop := true }) :=
      modSta_spends hj V _ 0 fun sm => ⟨rfl, le_refl _⟩
    have hwork1 := hinto.work
    obtain ⟨V1, hV1, hspends⟩ := h _ j (harea.same hinto.places) hj (by omega)
    have hout : Spends S G 0 V1 (V1.modSta j fun sm => { sm with inStepLoop := false }) :=
      modSta_spends hj V1 _ 0 fun sm => ⟨rfl, le_refl _⟩
    refine ⟨V1.modSta j fun sm => { sm with inStepLoop := false }, fun fuel hfuel => ?_, ?_⟩
    · simp only [wpaSmStepWith, hsta, hloop, hV1 fuel hfuel]
      rfl
    · exact (hinto.trans hspends).trans hout

theorem drive_work_update (sm : Sta) (b : Bool) :
    ({ sm with gUpdateStationKeys := b } : Sta).drive.work ≤ sm.drive.work + 7 := by
  by_cases hinit : sm.init = true
  · simp only [Drive.work, Sta.drive, hinit, if_true]
    omega
  rw [Bool.not_eq_true] at hinit
  have hafter := work_eq (d := ({ sm with gUpdateStationKeys := b } : Sta).drive) hinit
  rw [hafter, work_eq (d := sm.drive) hinit]
  simp only [Sta.drive]
  have hle := groupWork_le sm.ptkGroupState b sm.gTimeoutCtr
  have hclear := groupWork_clear sm.ptkGroupState sm.gUpdateStationKeys sm.gTimeoutCtr
  omega

-- A station that `wpa_group_update_sta` visits gets at most the group key handshake to do.
theorem wpaGroupUpdateSta_stops (h : Stops cr env S G n) {V : Auth} {j : ℕ} (harea : Area S G V) (hj : j ∈ S)
    (hwork : V.work S G + 7 < n) :
    ∃ V', (∀ fuel, n ≤ fuel → wpaGroupUpdateSta (wpaSmStepWith (wpaSmLoop cr env fuel)) V j = some V') ∧
      Spends S G 7 V V' := by
  have hflag (U : Auth) (b : Bool) : Spends S G 7 U (U.modSta j fun sm => { sm with gUpdateStationKeys := b }) :=
    modSta_spends hj U _ 7 fun sm => ⟨rfl, drive_work_update sm b⟩
  cases hsta : V.sta j with
  | none =>
    refine ⟨V, fun fuel _ => ?_, .refl V, by omega⟩
    simp only [wpaGroupUpdateSta, hsta]
  | some sm =>
    by_cases hst : sm.ptkState = .ptkinitdone
    · have hcount : Spends S G 0 V
          (V.modGroup sm.group fun g => { g with gKeyDoneStations := g.gKeyDoneStations + 1 }) :=
        ⟨modGroup_same V _ _, le_of_eq (modGroup_work V _ _ rfl)⟩
      have hset := hcount.trans (hflag _ true)
      have hwork1 := hset.work
      obtain ⟨V', hV', hspends⟩ := wpaSmStepWith_stops h (harea.same hset.places) hj (by omega)
      refine ⟨V', fun fuel hfuel => ?_, hset.trans hspends⟩
      simp only [wpaGroupUpdateSta, hsta, hst, ne_eq, not_true, if_false, hV' fuel hfuel]
    · refine ⟨_, fun fuel _ => ?_, hflag V false⟩
      simp only [wpaGroupUpdateSta, hsta, ne_eq, hst, not_false_eq_true, if_true]

theorem foldlM_stops (h : Stops cr env S G n) (l : List ℕ) (hl : ∀ j ∈ l, j ∈ S) {V : Auth} (harea : Area S G V)
    (hwork : V.work S G + 7 * l.length < n) :
    ∃ V', (∀ fuel, n ≤ fuel → l.foldlM (wpaGroupUpdateSta (wpaSmStepWith (wpaSmLoop cr env fuel))) V = some V') ∧
      Spends S G (7 * l.length) V V' := by
  induction l generalizing V with
  | nil => exact ⟨V, fun _ _ => rfl, .refl V⟩
  | cons j l ih =>
    rw [List.length_cons] at hwork
    obtain ⟨V1, hV1, hspends1⟩ := wpaGroupUpdateSta_stops h harea (hl j List.mem_cons_self) (by omega)
    have hwork1 := hspends1.work
    obtain ⟨V2, hV2, hspends2⟩ :=
      ih (fun k hk => hl k (List.mem_cons_of_mem _ hk)) (harea.same hspends1.places) (by omega)
    refine ⟨V2, fun fuel hfuel => ?_, ?_⟩
    · rw [List.foldlM_cons, hV1 fuel hfuel, Option.bind_eq_bind, Option.bind_some]
      exact hV2 fuel hfuel
    · have hspends := hspends1.trans hspends2
      rwa [show 7 + 7 * l.length = 7 * (j :: l).length by rw [List.length_cons]; omega] at hspends

theorem withGroup_same (W : Auth) (g : ℕ) (f : Ctx → Ctx) : SamePlaces W (W.withGroup g f) := ⟨rfl, fun _ => rfl⟩

theorem withGroup_work {g : ℕ} (hg : g ∈ G) (W : Auth) (f : Ctx → Ctx) :
    (W.withGroup g f).work S G + (W.group g).work W.staIds.length =
      W.work S G + (f (W.groupCtx g)).grp.work W.staIds.length := by
  have h : (W.withGroup g f).work S G + W.groupWork g = W.work S G + (W.withGroup g f).groupWork g := by
    refine work_of_group hg rfl rfl fun k hk => ?_
    simp only [Auth.withGroup, Function.update_of_ne hk]
  have hafter : (W.withGroup g f).groupWork g = (f (W.groupCtx g)).grp.work W.staIds.length := by
    simp only [Auth.groupWork, Auth.withGroup, Function.update_self]
    rfl
  rw [hafter] at h
  exact h

theorem setkeysdone_work {g : ℕ} (hg : g ∈ G) (W : Auth) (hinit : (W.group g).gInit = false)
    (hstate : (W.group g).state ≠ .setkeysdone) :
    (W.withGroup g (wpaGroupSetkeysdone W.ap)).work S G < W.work S G := by
  have h := withGroup_work (S := S) hg W (wpaGroupSetkeysdone W.ap)
  have hgroup : (W.groupCtx g).grp = W.group g := rfl
  rw [wpaGroupSetkeysdone_grp, hgroup] at h
  simp only [Group.work, hinit, Bool.false_eq_true, if_false, if_true, if_neg hstate] at h
  omega

theorem wpaGroupSetkeys_stops (h : Stops cr env S G n) {V : Auth} {g : ℕ} (harea : Area S G V) (hg : g ∈ G)
    (hwork : V.work S G ≤ n) (hinit : (V.group g).gInit = false) (hrekey : (V.group g).gtkReKey = true) :
    ∃ V', (∀ fuel, n ≤ fuel → wpaGroupSetkeys cr env (wpaSmStepWith (wpaSmLoop cr env fuel)) V g = some V') ∧
      SamePlaces V V' ∧ V'.work S G < V.work S G := by
  have hsame := withGroup_same V g (wpaGroupSetkeysStart cr env V.ap)
  have hstart := withGroup_work (S := S) hg V (wpaGroupSetkeysStart cr env V.ap)
  obtain ⟨hinit', hrekey', hstate', -⟩ := @wpaGroupSetkeysStart_grp cr env V.ap (V.groupCtx g)
  have hafter : (wpaGroupSetkeysStart cr env V.ap (V.groupCtx g)).grp.work V.staIds.length = 1 := by
    have hgroup : (V.groupCtx g).grp = V.group g := rfl
    rw [hgroup, hinit] at hinit'
    simp only [Group.work, hinit', hrekey', hstate', Bool.false_eq_true, if_false, reduceCtorEq]
  have hbefore : 2 + 7 * V.staIds.length ≤ (V.group g).work V.staIds.length := by
    simp only [Group.work, hinit, hrekey, Bool.false_eq_true, if_false, if_true]
    omega
  rw [hafter] at hstart
  obtain ⟨V', hV', hspends⟩ := foldlM_stops h V.staIds harea.stations (harea.same hsame) (by omega)
  have hle := hspends.work
  exact ⟨V', hV', hsame.trans hspends.places, by omega⟩

-- A step of the group machine lowers the work or leaves the stations and the mark of the first group alone.
theorem wpaGroupSmStep_stops (h : Stops cr env S G n) {V : Auth} {g : ℕ} (harea : Area S G V) (hg : g ∈ G)
    (hwork : V.work S G ≤ n) (hmark : (V.group 0).changed = false) :
    ∃ V', (∀ fuel, n ≤ fuel → wpaGroupSmStep cr env (wpaSmStepWith (wpaSmLoop cr env fuel)) V g = some V') ∧
      SamePlaces V V' ∧
      (V'.work S G < V.work S G ∨ V'.work S G = V.work S G ∧ V'.sta = V.sta ∧ (V'.group 0).changed = false) := by
  by_cases hinit : (V.group g).gInit = true
  · refine ⟨V.withGroup g (wpaGroupGtkInit cr env V.ap), fun fuel _ => ?_, withGroup_same V g _, .inr ⟨?_, rfl, ?_⟩⟩
    · simp only [wpaGroupSmStep, hinit, if_true]
    · have h1 := withGroup_work (S := S) hg V (wpaGroupGtkInit cr env V.ap)
      have hinit' : (wpaGroupGtkInit cr env V.ap (V.groupCtx g)).grp.gInit = true := by
        have hgoes := (wpaGtkUpdate_goes cr env V.ap (.refl { V.groupCtx g with grp := { V.group g with
          changed := false
          state := .gtkInit
          gtk := fun _ => fit (V.group g).gtkLen []
          gn := .first
          gnIgtk := .first } })).rel.2
        exact (congrArg GroupFixed.gInit hgoes.fixed).trans hinit
      simp only [Group.work, hinit, hinit', if_true] at h1
      omega
    · by_cases hzero : g = 0
      · simp only [Auth.withGroup, hzero, Function.update_self]
        exact wpaGtkUpdate_changed cr env V.ap _
      · simp only [Auth.withGroup, Function.update_of_ne (Ne.symm hzero)]
        exact hmark
  rw [Bool.not_eq_true] at hinit
  have hsame : ∃ V', (∀ fuel : ℕ, n ≤ fuel → some V = some V') ∧ SamePlaces V V' ∧
      (V'.work S G < V.work S G ∨ V'.work S G = V.work S G ∧ V'.sta = V.sta ∧ (V'.group 0).changed = false) :=
    ⟨V, fun _ _ => rfl, .refl V, .inr ⟨rfl, rfl, hmark⟩⟩
  have hsetkeys (hrekey : (V.group g).gtkReKey = true) :
      ∃ V', (∀ fuel, n ≤ fuel → wpaGroupSetkeys cr env (wpaSmStepWith (wpaSmLoop cr env fuel)) V g = some V') ∧
      SamePlaces V V' ∧
      (V'.work S G < V.work S G ∨ V'.work S G = V.work S G ∧ V'.sta = V.sta ∧ (V'.group 0).changed = false) := by
    obtain ⟨V', hV', hplaces, hlt⟩ := wpaGroupSetkeys_stops h harea hg hwork hinit hrekey
    exact ⟨V', hV', hplaces, .inl hlt⟩
  have hdone (hstate : (V.group g).state ≠ .setkeysdone) :
      ∃ V', (∀ fuel : ℕ, n ≤ fuel → some (V.withGroup g (wpaGroupSetkeysdone V.ap)) = some V') ∧ SamePlaces V V' ∧
      (V'.work S G < V.work S G ∨ V'.work S G = V.work S G ∧ V'.sta = V.sta ∧ (V'.group 0).changed = false) :=
    ⟨_, fun _ _ => rfl, withGroup_same V g _, .inl (setkeysdone_work hg V hinit hstate)⟩
  simp only [wpaGroupSmStep, hinit, Bool.false_eq_true, if_false]
  cases hstate : (V.group g).state with
  | gtkInit =>
    dsimp only
    exact hdone (by rw [hstate]; decide)
  | setkeysdone =>
    dsimp only
    split
    · rename_i hrekey
      exact hsetkeys hrekey
    · exact hsame
  | setkeys =>
    dsimp only
    split
    · exact hdone (by rw [hstate]; decide)
    split
    · rename_i hrekey
      exact hsetkeys hrekey
    · exact hsame

theorem wpaSmStepRound_stops (h : Stops cr env S G n) {W : Auth} {i : ℕ} (harea : Area S G W) (hi : i ∈ S)
    (hwork : W.work S G ≤ n) :
    ∃ W', (∀ fuel, n ≤ fuel → wpaSmStepRound cr env (wpaSmStepWith (wpaSmLoop cr env fuel)) W i = some W') ∧
      Spends S G 0 W W' ∧ (stepAgain W' i = true → W'.work S G < W.work S G) := by
  have hplaces := @staRound_same cr env W i
  obtain ⟨hmark, hle, hlt⟩ := @staRound_work cr env S G i hi W
  simp only [wpaSmStepRound]
  generalize staRound cr env W i = V at hplaces hmark hle hlt
  cases hsta : V.sta i with
  | none =>
    refine ⟨V, fun _ _ => rfl, ⟨hplaces, hle⟩, fun hagain => ?_⟩
    simp only [stepAgain, hsta, hmark, Bool.or_self, Bool.false_eq_true] at hagain
  | some sm =>
    have harea' := harea.same hplaces
    obtain ⟨V', hV', hplaces', hstep⟩ :=
      wpaGroupSmStep_stops h harea' (harea'.groups i hi sm hsta) (by omega) hmark
    refine ⟨V', hV', ⟨hplaces.trans hplaces', ?_⟩, fun hagain => ?_⟩
    · rcases hstep with hlt' | ⟨heq, -⟩ <;> omega
    · rcases hstep with hlt' | ⟨heq, hsta', hmark'⟩
      · omega
      simp only [stepAgain, hsta', hsta, hmark', Bool.or_false] at hagain
      have := hlt sm hsta hagain
      omega

-- By induction on the work: a round that is not the last leaves less of it, and so do the nested calls of a group rekey.
theorem wpaSmLoop_stops (n : ℕ) : Stops cr env S G n := by
  induction n with
  | zero => exact fun V j _ _ hwork => absurd hwork (Nat.not_lt_zero _)
  | succ n ih =>
    intro W i harea hi hwork
    obtain ⟨W1, hround, hspends, hagain⟩ := wpaSmStepRound_stops ih harea hi (Nat.le_of_lt_succ hwork)
    by_cases hmore : stepAgain W1 i = true
    · have hlt := hagain hmore
      obtain ⟨W', hW', hspends'⟩ := ih W1 i (harea.same hspends.places) hi (by omega)
      refine ⟨W', fun fuel hfuel => ?_, hspends.trans hspends'⟩
      obtain ⟨m, rfl⟩ : ∃ m, fuel = m + 1 := ⟨fuel - 1, by omega⟩
      simp only [wpaSmLoop, hround m (by omega), Option.bind_eq_bind, Option.bind_some, hmore, if_true]
      exact hW' m (by omega)
    · refine ⟨W1, fun fuel hfuel => ?_, hspends⟩
      obtain ⟨m, rfl⟩ : ∃ m, fuel = m + 1 := ⟨fuel - 1, by omega⟩
      simp only [wpaSmLoop, hround m (by omega), Option.bind_eq_bind, Option.bind_some, hmore]
      rfl

theorem area_of (W : Auth) (i : ℕ) : ∃ S G, i ∈ S ∧ Area S G W := by
  let S : Finset ℕ := insert i W.staIds.toFinset
  refine ⟨S, S.image fun j => ((W.sta j).map Sta.group).getD 0, Finset.mem_insert_self _ _,
    fun j hj => Finset.mem_insert_of_mem (List.mem_toFinset.mpr hj), fun j hj sm hsm => ?_⟩
  exact Finset.mem_image.mpr ⟨j, hj, by rw [hsm]; rfl⟩

-- `wpa_sm_step` ends for every station in every state, whatever the callbacks answer: from some fuel on it always ends
-- in the same state.
theorem wpaSmStep_terminates (cr : Crypto) (env : Env) (W : Auth) (i : ℕ) :
    ∃ n W', ∀ fuel, n ≤ fuel → wpaSmStep cr env fuel W i = some W' := by
  obtain ⟨S, G, hi, harea⟩ := area_of W i
  obtain ⟨W', hW', -⟩ :=
    wpaSmStepWith_stops (wpaSmLoop_stops (W.work S G + 1)) harea hi (Nat.lt_succ_self _)
  exact ⟨_, W', hW'⟩

end Loop

end WpaSupplicant.Authenticator
