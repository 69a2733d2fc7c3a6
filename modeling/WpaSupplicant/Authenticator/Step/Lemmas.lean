import WpaSupplicant.Lib.Repeat
import WpaSupplicant.Authenticator.Machine.Transitions
import WpaSupplicant.Authenticator.Step

namespace WpaSupplicant.Authenticator

open Lib.Octets Lib.Window Lib.Effect Lib.Loop KeyData

namespace Auth

def ctx (W : Auth) (sm : Sta) : Ctx := ⟨sm, W.group sm.group, W.tick, W.out⟩

def put (W : Auth) (i g : ℕ) (c : Ctx) : Auth :=
  { W with
    sta := Function.update W.sta i (some c.sm)
    group := Function.update W.group g c.grp
    tick := c.tick
    out := c.out }

theorem withSta_some {W : Auth} {i : ℕ} {sm : Sta} (h : W.sta i = some sm) (f : Ctx → Ctx) :
    W.withSta i f = W.put i sm.group (f (W.ctx sm)) := by
  simp only [withSta, h]
  rfl

theorem modSta_some {W : Auth} {i : ℕ} {sm : Sta} (h : W.sta i = some sm) (f : Sta → Sta) :
    W.modSta i f = { W with sta := Function.update W.sta i (some (f sm)) } := by
  simp only [modSta, h, Option.map_some]

theorem modSta_none {W : Auth} {i : ℕ} (h : W.sta i = none) (f : Sta → Sta) : W.modSta i f = W := by
  have hu : Function.update W.sta i none = W.sta := by rw [← h, Function.update_eq_self]
  simp only [modSta, h, Option.map_none, hu]

theorem withSta_none {W : Auth} {i : ℕ} (h : W.sta i = none) (f : Ctx → Ctx) :
    W.withSta i f = W := by
  simp only [withSta, h]

theorem put_put (W : Auth) (i g : ℕ) (c c' : Ctx) : (W.put i g c).put i g c' = W.put i g c' := by
  simp [put]

theorem put_ctx (W : Auth) (i g : ℕ) (c : Ctx) (hg : c.sm.group = g) : (W.put i g c).ctx c.sm = c := by
  simp [ctx, put, hg]

end Auth

def NoRekey (W : Auth) : Prop :=
  ∀ g, (W.group g).gInit = false ∧ (W.group g).gtkReKey = false ∧ (W.group g).state ≠ .gtkInit

section Round

variable (cr : Crypto) (env : Env)

def Ctx.unmarked (c : Ctx) : Ctx := { c with sm := { c.sm with changed := false } }

def roundFn (ap : Ap) (c : Ctx) : Ctx :=
  ptkGroupStep cr env ap (ptkStep cr env ap c.unmarked)

def Auth.unmarked (W : Auth) : Auth := W.modGroup 0 fun g => { g with changed := false }

-- The step of the group machine when no new key is waited for
def groupRound (W : Auth) (i : ℕ) : Auth :=
  match W.sta i with
  | none => W
  | some sm =>
    if (W.group sm.group).state = .setkeys ∧ (W.group sm.group).gKeyDoneStations = 0 then
      W.withGroup sm.group (wpaGroupSetkeysdone W.ap)
    else W

def smRound (i : ℕ) (W : Auth) : Auth := groupRound (staRound cr env W i) i

variable {cr env}

theorem roundFn_steps (ap : Ap) (c : Ctx) :
    ∃ c1, PtkStep cr env ap c.unmarked c1 ∧ Goes c1 (roundFn cr env ap c) ∧
      (roundFn cr env ap c).sm.ptkState = c1.sm.ptkState :=
  ⟨_, ptkStep_step cr env ap _, ptkGroupStep_goes cr env ap _, ptkGroupStep_ptkState cr env ap _⟩

theorem roundFn_moves (ap : Ap) (c : Ctx) :
    (roundFn cr env ap c).sm.fixed = c.sm.fixed ∧
      Moves c.sm c.grp (roundFn cr env ap c).sm (roundFn cr env ap c).grp := by
  obtain ⟨c1, hstep, hgoes, -⟩ := @roundFn_steps cr env ap c
  obtain ⟨hfixed, hmoves⟩ := PtkStep.moves cr env ap hstep
  have hall := hmoves.trans hgoes.rel.2
  exact ⟨hgoes.rel.1.fixed.trans hfixed, hall.fixed, hall.count, hall.clock, hall.pending⟩

theorem wpaGroupSetkeysdone_grp (ap : Ap) (c : Ctx) :
    (wpaGroupSetkeysdone ap c).grp = { c.grp with changed := true, state := .setkeysdone } := by
  simp only [wpaGroupSetkeysdone, wpaGroupConfigGroupKeys]
  split <;> rfl

variable {W : Auth} {i : ℕ}

theorem NoRekey.of_groups {W' : Auth} (h : NoRekey W)
    (hgroup : ∀ g, (W'.group g).gInit = (W.group g).gInit ∧
      (W'.group g).gtkReKey = (W.group g).gtkReKey ∧
      ((W'.group g).state = (W.group g).state ∨ (W'.group g).state ≠ .gtkInit)) : NoRekey W' := by
  intro g
  obtain ⟨hinit, hrekey, hstate⟩ := hgroup g
  obtain ⟨h1, h2, h3⟩ := h g
  refine ⟨hinit.trans h1, hrekey.trans h2, ?_⟩
  rcases hstate with hstate | hstate
  · rwa [hstate]
  · exact hstate

theorem NoRekey.of_fixed {W' : Auth} (h : NoRekey W)
    (hfixed : ∀ g, (W'.group g).fixed = (W.group g).fixed) : NoRekey W' :=
  h.of_groups fun g => ⟨congrArg GroupFixed.gInit (hfixed g),
    congrArg GroupFixed.gtkReKey (hfixed g), .inl (congrArg GroupFixed.state (hfixed g))⟩

theorem put_group_fixed (W : Auth) (i g : ℕ) (c : Ctx) (h : c.grp.fixed = (W.group g).fixed) :
    ∀ k, ((W.put i g c).group k).fixed = (W.group k).fixed := by
  intro k
  by_cases hk : k = g
  · subst hk
    simpa [Auth.put] using h
  · simp [Auth.put, hk]

theorem unmarked_group_fixed (W : Auth) (k : ℕ) :
    (W.unmarked.group k).fixed = (W.group k).fixed := by
  by_cases hk : k = 0
  · subst hk
    simp [Auth.unmarked, Auth.modGroup, Group.fixed]
  · simp [Auth.unmarked, Auth.modGroup, hk]

theorem staRound_none (hi : W.sta i = none) : staRound cr env W i = W.unmarked := by
  simp only [staRound]
  rw [Auth.modSta_none hi, Auth.withSta_none]
  · rfl
  · exact hi

theorem staRound_some {sm : Sta} (hi : W.sta i = some sm) :
    staRound cr env W i =
      W.unmarked.put i sm.group (roundFn cr env W.ap (W.unmarked.ctx sm)) := by
  have h1 : ((W.modSta i fun sm => { sm with changed := false }).modGroup 0
      fun g => { g with changed := false }).sta i = some { sm with changed := false } := by
    simp [Auth.modSta_some hi, Auth.modGroup]
  simp only [staRound]
  rw [Auth.withSta_some h1, Auth.put, Auth.put, Auth.modSta_some hi]
  simp only [Auth.modGroup, Auth.unmarked, Function.update_idem]
  rfl

theorem staRound_group_fixed (W : Auth) (i k : ℕ) :
    ((staRound cr env W i).group k).fixed = (W.group k).fixed := by
  cases hi : W.sta i with
  | none =>
    rw [staRound_none hi]
    exact unmarked_group_fixed W k
  | some sm =>
    rw [staRound_some hi, put_group_fixed]
    · exact unmarked_group_fixed W k
    · exact (roundFn_moves W.ap _).2.fixed

theorem groupRound_eq (step : Auth → ℕ → Option Auth) {W : Auth} (h : NoRekey W) {i : ℕ} {sm : Sta}
    (hi : W.sta i = some sm) :
    wpaGroupSmStep cr env step W sm.group = some (groupRound W i) := by
  obtain ⟨hinit, hrekey, hstate⟩ := h sm.group
  simp only [wpaGroupSmStep, groupRound, hi, hinit, hrekey, Bool.false_eq_true, if_false]
  cases hst : (W.group sm.group).state with
  | gtkInit => exact absurd hst hstate
  | setkeysdone => simp
  | setkeys =>
    simp only [true_and]
    split <;> rfl

theorem wpaSmStepRound_eq (step : Auth → ℕ → Option Auth) {W : Auth} (h : NoRekey W) (i : ℕ) :
    wpaSmStepRound cr env step W i = some (smRound cr env i W) := by
  have h1 : NoRekey (staRound cr env W i) := h.of_fixed (staRound_group_fixed W i)
  simp only [wpaSmStepRound, smRound]
  split
  · rename_i hi
    simp only [groupRound, hi]
  · rename_i sm hi
    exact groupRound_eq step h1 hi

-- A step that leaves the stations alone: the Counters of the groups go up, and nothing is done to
-- a station.
structure GroupsMove (W W' : Auth) : Prop where
  ap : W'.ap = W.ap
  groupIds : W'.groupIds = W.groupIds
  staIds : W'.staIds = W.staIds
  sta : W'.sta = W.sta
  clock : ∀ g, ClockLe (W.group g) (W'.group g)
  emitted : ∃ l, W'.out = W.out ++ l ∧ ∀ o ∈ l, Quiet o

theorem GroupsMove.refl (W : Auth) : GroupsMove W W :=
  ⟨rfl, rfl, rfl, rfl, fun g => .refl _, [], by simp, by simp⟩

theorem clockLe_update {g : ℕ} {grp : Group} (h : ClockLe (W.group g) grp) (k : ℕ) :
    ClockLe (W.group k) (Function.update W.group g grp k) := by
  by_cases hk : k = g
  · subst hk
    simpa using h
  · simpa [hk] using ClockLe.refl _

theorem modGroup_move (W : Auth) (g : ℕ) (f : Group → Group)
    (hclock : ClockLe (W.group g) (f (W.group g))) : GroupsMove W (W.modGroup g f) :=
  ⟨rfl, rfl, rfl, rfl, clockLe_update hclock, [], by simp [Auth.modGroup], by simp⟩

def Auth.groupCtx (W : Auth) (g : ℕ) : Ctx :=
  ⟨{ group := g, addr := 0 }, W.group g, W.tick, W.out⟩

theorem withGroup_move (W : Auth) (g : ℕ) (f : Ctx → Ctx)
    (hclock : ClockLe (W.group g) (f (W.groupCtx g)).grp)
    (hemitted : ∃ l, (f (W.groupCtx g)).out = W.out ++ l ∧ ∀ o ∈ l, Quiet o) :
    GroupsMove W (W.withGroup g f) :=
  ⟨rfl, rfl, rfl, rfl, clockLe_update hclock, hemitted⟩

theorem unmarked_move (W : Auth) : GroupsMove W W.unmarked :=
  modGroup_move W 0 _ (.inr ⟨rfl, BitVec.le_refl _⟩)

theorem setkeysdone_move (W : Auth) (g : ℕ) :
    GroupsMove W (W.withGroup g (wpaGroupSetkeysdone W.ap)) := by
  refine withGroup_move W g _ ?_ ?_
  · rw [wpaGroupSetkeysdone_grp]
    exact .inr ⟨rfl, BitVec.le_refl _⟩
  · exact (wpaGroupConfigGroupKeys_goes W.ap (.refl _)).emitted

theorem groupRound_move (W : Auth) (i : ℕ) : GroupsMove W (groupRound W i) := by
  rw [groupRound]
  split
  · exact .refl W
  split
  · exact setkeysdone_move W _
  · exact .refl W

-- What the functions of station `i` leave alone
structure Frame (i : ℕ) (W W' : Auth) : Prop where
  ap : W'.ap = W.ap
  groupIds : W'.groupIds = W.groupIds
  staIds : W'.staIds = W.staIds
  other : ∀ j, j ≠ i → W'.sta j = W.sta j
  fixed : (W'.sta i).map Sta.fixed = (W.sta i).map Sta.fixed

theorem Frame.trans {x y z : Auth} (h : Frame i x y) (h' : Frame i y z) : Frame i x z :=
  ⟨h'.ap.trans h.ap, h'.groupIds.trans h.groupIds, h'.staIds.trans h.staIds,
    fun j hj => (h'.other j hj).trans (h.other j hj), h'.fixed.trans h.fixed⟩

theorem GroupsMove.frame {W' : Auth} (h : GroupsMove W W') (i : ℕ) : Frame i W W' :=
  ⟨h.ap, h.groupIds, h.staIds, fun j _ => by rw [h.sta], by rw [h.sta]⟩

theorem put_frame {sm : Sta} (hi : W.sta i = some sm) (g : ℕ) (c : Ctx) (hfixed : c.sm.fixed = sm.fixed) :
    Frame i W (W.put i g c) :=
  ⟨rfl, rfl, rfl, fun j hj => by simp [Auth.put, hj], by simp [Auth.put, hi, hfixed]⟩

theorem smRound_frame (W : Auth) (i : ℕ) : Frame i W (smRound cr env i W) := by
  refine Frame.trans ?_ ((groupRound_move _ i).frame i)
  cases hi : W.sta i with
  | none =>
    rw [staRound_none hi]
    exact (unmarked_move W).frame i
  | some sm =>
    rw [staRound_some hi]
    have hi' : W.unmarked.sta i = some sm := hi
    exact ((unmarked_move W).frame i).trans (put_frame hi' _ _ (roundFn_moves W.ap _).1)

theorem smRound_noRekey (h : NoRekey W) (i : ℕ) : NoRekey (smRound cr env i W) := by
  have h1 : NoRekey (staRound cr env W i) := h.of_fixed (staRound_group_fixed W i)
  rw [smRound, groupRound]
  split
  · exact h1
  rename_i sm hi
  split
  · refine h1.of_groups fun g => ?_
    by_cases hg : g = sm.group
    · subst hg
      simp only [Auth.withGroup, Function.update_self, wpaGroupSetkeysdone_grp, true_and]
      exact .inr (by simp)
    · simp [Auth.withGroup, hg]
  · exact h1

theorem smRound_some {sm : Sta} (hi : W.sta i = some sm) :
    (smRound cr env i W).sta =
        Function.update W.sta i (some (roundFn cr env W.ap (W.unmarked.ctx sm)).sm) ∧
      ∃ l, (smRound cr env i W).out = (roundFn cr env W.ap (W.unmarked.ctx sm)).out ++ l ∧
        ∀ o ∈ l, Quiet o := by
  have hmove := groupRound_move (staRound cr env W i) i
  rw [smRound]
  refine ⟨hmove.sta.trans ?_, ?_⟩
  · rw [staRound_some hi]
    rfl
  · obtain ⟨l, hl, hquiet⟩ := hmove.emitted
    refine ⟨l, hl.trans ?_, hquiet⟩
    rw [staRound_some hi]
    rfl

-- A round for an invariant that does not depend on the groups but for their Counters
theorem smRound_rule {I : Auth → Prop} (hmove : ∀ W W', GroupsMove W W' → I W → I W')
    (hsta : ∀ W sm, I W → W.sta i = some sm → I (W.put i sm.group (roundFn cr env W.ap (W.ctx sm))))
    (W : Auth) (hI : I W) : I (smRound cr env i W) := by
  refine hmove _ _ (groupRound_move _ i) ?_
  have h1 := hmove _ _ (unmarked_move W) hI
  cases hi : W.sta i with
  | none =>
    rw [staRound_none hi]
    exact h1
  | some sm =>
    rw [staRound_some hi]
    exact hsta W.unmarked sm h1 hi

end Round

section Loop

variable {cr : Crypto} {env : Env}

variable {fuel i : ℕ} {W W' : Auth}

-- Without a new group key to wait for, the loop of `wpa_sm_step` is a sequence of rounds of one
-- station.
theorem wpaSmLoop_rounds (hno : NoRekey W) (h : wpaSmLoop cr env fuel W i = some W') :
    Rounds (smRound cr env i) (stepAgain · i) W W' := by
  induction fuel generalizing W with
  | zero => simp [wpaSmLoop] at h
  | succ fuel ih =>
    simp only [wpaSmLoop, wpaSmStepRound_eq _ hno, Option.bind_eq_bind, Option.bind_some] at h
    split at h
    · rename_i hagain
      exact .more hagain (ih (smRound_noRekey hno i) h)
    rename_i hagain
    obtain rfl := Option.some.inj h
    exact .last (by simpa using hagain)

-- No station is in the loop of `wpa_sm_step`.
def Idle (W : Auth) : Prop := ∀ j sm, W.sta j = some sm → sm.inStepLoop = false

def Sta.looping (b : Bool) (sm : Sta) : Sta := { sm with inStepLoop := b }

theorem wpaSmStep_none (hi : W.sta i = none) (h : wpaSmStep cr env fuel W i = some W') : W' = W := by
  simp only [wpaSmStep, wpaSmStepWith, hi] at h
  exact (Option.some.inj h).symm

theorem wpaSmStep_rounds {sm : Sta} (hno : NoRekey W) (hidle : Idle W) (hi : W.sta i = some sm)
    (h : wpaSmStep cr env fuel W i = some W') :
    ∃ W1, Rounds (smRound cr env i) (stepAgain · i) (W.modSta i (Sta.looping true)) W1 ∧
      W' = W1.modSta i (Sta.looping false) := by
  simp only [wpaSmStep, wpaSmStepWith, hi, hidle i sm hi, Bool.false_eq_true, if_false,
    Option.bind_eq_bind] at h
  obtain ⟨W1, h1, h2⟩ := Option.bind_eq_some_iff.mp h
  exact ⟨W1, wpaSmLoop_rounds hno h1, (Option.some.inj h2).symm⟩

theorem rounds_frame (h : Rounds (smRound cr env i) (stepAgain · i) W W') : Frame i W W' := by
  have hrefl : Frame i W W := ⟨rfl, rfl, rfl, fun _ _ => rfl, rfl⟩
  exact (h.rule (I := Frame i W) (T := fun _ => True)
    (fun s hs => ⟨hs.trans (smRound_frame s i), trivial⟩) hrefl).1

theorem rounds_noRekey (hno : NoRekey W) (h : Rounds (smRound cr env i) (stepAgain · i) W W') : NoRekey W' :=
  (h.rule (I := NoRekey) (T := fun _ => True)
    (fun _ hs => ⟨smRound_noRekey hs i, trivial⟩) hno).1

structure Resting (W : Auth) : Prop where
  noRekey : NoRekey W
  idle : Idle W

-- A step of a station comes to rest, and leaves everything but that station and its group alone.
theorem wpaSmStep_resting (hrest : Resting W) (h : wpaSmStep cr env fuel W i = some W') :
    Resting W' ∧ Frame i W W' := by
  cases hi : W.sta i with
  | none =>
    obtain rfl := wpaSmStep_none hi h
    exact ⟨hrest, rfl, rfl, rfl, fun _ _ => rfl, rfl⟩
  | some sm =>
    obtain ⟨W1, hrounds, rfl⟩ := wpaSmStep_rounds hrest.noRekey hrest.idle hi h
    have hframe := rounds_frame hrounds
    have hno : NoRekey W1 := by
      refine rounds_noRekey ?_ hrounds
      exact hrest.noRekey.of_fixed fun _ => rfl
    have hfixed := hframe.fixed
    simp only [Auth.modSta_some hi, Function.update_self, Option.map_some] at hfixed
    cases hi1 : W1.sta i with
    | none => simp [hi1] at hfixed
    | some sm1 =>
      rw [hi1] at hfixed
      have hother : ∀ j, j ≠ i → (W1.modSta i (Sta.looping false)).sta j = W.sta j := by
        intro j hj
        have := hframe.other j hj
        simpa [Auth.modSta, hj] using this
      refine ⟨⟨hno.of_fixed fun _ => rfl, ?_⟩, hframe.ap, hframe.groupIds, hframe.staIds,
        hother, ?_⟩
      · intro j smj hj
        by_cases hji : j = i
        · subst hji
          obtain rfl : sm1.looping false = smj := by simpa [Auth.modSta_some hi1] using hj
          rfl
        · exact hrest.idle j smj ((hother j hji).symm.trans hj)
      · have hfixed := congrArg (fun x : StaFixed => { x with inStepLoop := false })
          (Option.some.inj hfixed)
        have hsm : sm.fixed = { sm.fixed with inStepLoop := false } := by
          simp [Sta.fixed, hrest.idle i sm hi]
        simp only [Auth.modSta_some hi1, Function.update_self, hi, Option.map_some]
        rw [hsm]
        exact congrArg some hfixed

end Loop

section Rekey

variable {cr : Crypto} {env : Env} {fuel : ℕ}

-- The same while `wpa_rekey_gtk` works on group `g`
structure Rekeying (g : ℕ) (W : Auth) : Prop where
  idle : Idle W
  groups : ∀ k, (W.group k).gInit = false ∧ (W.group k).state ≠ .gtkInit ∧
    (k ≠ g → (W.group k).gtkReKey = false)

variable {W W' : Auth} {g : ℕ} {I : Auth → Prop}

theorem Resting.rekeying (h : Resting W) (g : ℕ) : Rekeying g W :=
  ⟨h.idle, fun k => ⟨(h.noRekey k).1, (h.noRekey k).2.2, fun _ => (h.noRekey k).2.1⟩⟩

theorem Rekeying.resting (h : Rekeying g W) (hg : (W.group g).gtkReKey = false) : Resting W := by
  refine ⟨fun k => ⟨(h.groups k).1, ?_, (h.groups k).2.1⟩, h.idle⟩
  by_cases hk : k = g
  · rwa [hk]
  · exact (h.groups k).2.2 hk

theorem Rekeying.update (h : Rekeying g W) (hsta : W'.sta = W.sta) (grp : Group)
    (hgroup : W'.group = Function.update W.group g grp) (hinit : (grp).gInit = false)
    (hstate : (grp).state ≠ .gtkInit) : Rekeying g W' := by
  refine ⟨fun j sm hj => h.idle j sm (by rwa [hsta] at hj), fun k => ?_⟩
  rw [hgroup]
  by_cases hk : k = g
  · subst hk
    simpa using ⟨hinit, hstate⟩
  · simpa [hk] using h.groups k

theorem wpaGroupSetkeysStart_grp (ap : Ap) (c : Ctx) :
    let g := (wpaGroupSetkeysStart cr env ap c).grp
    g.gInit = c.grp.gInit ∧ g.gtkReKey = false ∧ g.state = .setkeys ∧ g.gKeyDoneStations = 0 ∧
      ClockLe c.grp g := by
  have h := (wpaGtkUpdate_goes cr env ap (.refl { c with grp := { c.grp with
    changed := true
    state := .setkeys
    gtkReKey := false
    gn := c.grp.gn.other
    gnIgtk := c.grp.gnIgtk.other } })).rel.2
  have hclock := h.clock
  refine ⟨congrArg GroupFixed.gInit h.fixed, congrArg GroupFixed.gtkReKey h.fixed,
    congrArg GroupFixed.state h.fixed, rfl, ?_⟩
  exact hclock

theorem setkeysStart_move (W : Auth) (g : ℕ) :
    GroupsMove W (W.withGroup g (wpaGroupSetkeysStart cr env W.ap)) := by
  refine withGroup_move W g _ (wpaGroupSetkeysStart_grp W.ap (W.groupCtx g)).2.2.2.2 ?_
  exact (wpaGtkUpdate_goes cr env W.ap (.refl _)).emitted

theorem setkeysStart_resting (h : Rekeying g W) :
    Resting (W.withGroup g (wpaGroupSetkeysStart cr env W.ap)) := by
  obtain ⟨hinit, hrekey, hstate, -, -⟩ :=
    @wpaGroupSetkeysStart_grp cr env W.ap (W.groupCtx g)
  have h1 : Rekeying g (W.withGroup g (wpaGroupSetkeysStart cr env W.ap)) :=
    h.update rfl _ rfl (hinit.trans (h.groups g).1) fun hc =>
      GroupState.noConfusion (hstate.symm.trans hc)
  refine h1.resting ?_
  simp only [Auth.withGroup, Function.update_self]
  exact hrekey

def Sta.updating (b : Bool) (sm : Sta) : Sta := { sm with gUpdateStationKeys := b }

theorem modSta_resting (h : Resting W) (i : ℕ) (f : Sta → Sta)
    (hf : ∀ sm, (f sm).inStepLoop = sm.inStepLoop) : Resting (W.modSta i f) := by
  refine ⟨h.noRekey.of_fixed fun _ => rfl, fun j sm hj => ?_⟩
  by_cases hji : j = i
  · subst hji
    simp only [Auth.modSta, Function.update_self] at hj
    obtain ⟨sm0, hsm0, rfl⟩ := Option.map_eq_some_iff.mp hj
    rw [hf]
    exact h.idle j sm0 hsm0
  · simp only [Auth.modSta, Function.update_of_ne hji] at hj
    exact h.idle j sm hj

theorem modGroup_resting (h : Resting W) (g : ℕ) (f : Group → Group)
    (hf : (f (W.group g)).fixed = (W.group g).fixed) : Resting (W.modGroup g f) := by
  refine ⟨h.noRekey.of_fixed fun k => ?_, h.idle⟩
  by_cases hk : k = g
  · subst hk
    simpa [Auth.modGroup] using hf
  · simp [Auth.modGroup, hk]

theorem wpaGroupUpdateSta_cases {i : ℕ} (h : wpaGroupUpdateSta (wpaSmStep cr env fuel) W i = some W') :
    (W.sta i = none ∧ W' = W) ∨
    (∃ sm, W.sta i = some sm ∧ sm.ptkState ≠ .ptkinitdone ∧
      W' = W.modSta i (Sta.updating false)) ∨
    (∃ sm, W.sta i = some sm ∧ sm.ptkState = .ptkinitdone ∧
      wpaSmStep cr env fuel ((W.modGroup sm.group fun g =>
        { g with gKeyDoneStations := g.gKeyDoneStations + 1 }).modSta i (Sta.updating true)) i =
        some W') := by
  simp only [wpaGroupUpdateSta] at h
  split at h
  · rename_i hi
    exact .inl ⟨hi, (Option.some.inj h).symm⟩
  rename_i sm hi
  split at h
  · rename_i hst
    exact .inr (.inl ⟨sm, hi, hst, (Option.some.inj h).symm⟩)
  · rename_i hst
    exact .inr (.inr ⟨sm, hi, by simpa using hst, h⟩)

theorem updatingTrue_resting (h : Resting W) (i g : ℕ) :
    Resting ((W.modGroup g fun g => { g with gKeyDoneStations := g.gKeyDoneStations + 1 }).modSta i
      (Sta.updating true)) :=
  modSta_resting (modGroup_resting h _ _ rfl) _ _ fun _ => rfl

theorem wpaGroupUpdateSta_resting {i : ℕ} (hrest : Resting W)
    (h : wpaGroupUpdateSta (wpaSmStep cr env fuel) W i = some W') : Resting W' := by
  rcases wpaGroupUpdateSta_cases h with ⟨-, rfl⟩ | ⟨sm, hi, -, rfl⟩ | ⟨sm, hi, -, hstep⟩
  · exact hrest
  · exact modSta_resting hrest _ _ fun _ => rfl
  · exact (wpaSmStep_resting (updatingTrue_resting hrest i sm.group) hstep).1

-- What `wpa_group_setkeys` keeps: the loop over the stations starts and ends at rest.
theorem wpaGroupSetkeys_rule (hrek : Rekeying g W)
    (hstart : I (W.withGroup g (wpaGroupSetkeysStart cr env W.ap)))
    (hsta : ∀ V i V', Resting V → I V → wpaGroupUpdateSta (wpaSmStep cr env fuel) V i = some V' → I V')
    (h : wpaGroupSetkeys cr env (wpaSmStep cr env fuel) W g = some W') : I W' ∧ Resting W' := by
  have hrule := foldlM_rule (I := fun V => I V ∧ Resting V)
    (fun V i V' hV hV' => ⟨hsta V i V' hV.2 hV.1 hV', wpaGroupUpdateSta_resting hV.2 hV'⟩)
  exact hrule _ ⟨hstart, setkeysStart_resting hrek⟩ h

-- What one step of the group machine does while `wpa_rekey_gtk` works on the group
theorem wpaGroupSmStep_cases (hrek : Rekeying g W)
    (h : wpaGroupSmStep cr env (wpaSmStep cr env fuel) W g = some W') :
    (W' = W ∧ (W.group g).gtkReKey = false) ∨
    ((W.group g).state = .setkeys ∧ (W.group g).gKeyDoneStations = 0 ∧
      W' = W.withGroup g (wpaGroupSetkeysdone W.ap)) ∨
    ((W.group g).gtkReKey = true ∧
      wpaGroupSetkeys cr env (wpaSmStep cr env fuel) W g = some W') := by
  obtain ⟨hinit, hstate, -⟩ := hrek.groups g
  simp only [wpaGroupSmStep, hinit, Bool.false_eq_true, if_false] at h
  split at h
  · rename_i hst
    exact absurd hst hstate
  · split at h
    · rename_i hrekey
      exact .inr (.inr ⟨hrekey, h⟩)
    · rename_i hrekey
      exact .inl ⟨(Option.some.inj h).symm, by simpa using hrekey⟩
  · rename_i hst
    split at h
    · rename_i hcount
      exact .inr (.inl ⟨hst, hcount, (Option.some.inj h).symm⟩)
    split at h
    · rename_i hrekey
      exact .inr (.inr ⟨hrekey, h⟩)
    · rename_i hrekey
      exact .inl ⟨(Option.some.inj h).symm, by simpa using hrekey⟩

theorem setkeysdone_rekeying (h : Rekeying g W) : Rekeying g (W.withGroup g (wpaGroupSetkeysdone W.ap)) := by
  refine h.update rfl _ rfl ?_ ?_
  · rw [wpaGroupSetkeysdone_grp]
    exact (h.groups g).1
  · rw [wpaGroupSetkeysdone_grp]
    simp

-- What `wpa_rekey_gtk` keeps while it works on one group. It does not stop before the group has
-- its new key.
theorem wpaRekeyGtkLoop_rule
    (hmark : ∀ V, I V → I (V.modGroup g fun grp => { grp with changed := false })) 
    (hdone : ∀ V, I V → (V.group g).state = .setkeys → (V.group g).gKeyDoneStations = 0 →
      I (V.withGroup g (wpaGroupSetkeysdone V.ap)))
    (hset : ∀ V V', Rekeying g V → I V → (V.group g).gtkReKey = true →
      wpaGroupSetkeys cr env (wpaSmStep cr env fuel) V g = some V' → I V')
    {rounds : ℕ} {W W' : Auth} (hrek : Rekeying g W) (hI : I W)
    (h : wpaRekeyGtkLoop cr env fuel rounds W g = some W') : I W' ∧ Resting W' := by
  induction rounds generalizing W with
  | zero => simp [wpaRekeyGtkLoop] at h
  | succ rounds ih =>
    simp only [wpaRekeyGtkLoop, Option.bind_eq_bind] at h
    obtain ⟨W1, h1, h2⟩ := Option.bind_eq_some_iff.mp h
    have hI0 := hmark W hI
    have hrek0 : Rekeying g (W.modGroup g fun grp => { grp with changed := false }) :=
      hrek.update rfl _ rfl (hrek.groups g).1 (hrek.groups g).2.1
    generalize W.modGroup g _ = W0 at hI0 hrek0 h1
    rcases wpaGroupSmStep_cases hrek0 h1 with
      ⟨rfl, hrekey⟩ | ⟨hst, hcount, rfl⟩ | ⟨hrekey, hsetkeys⟩
    · have hrest := hrek0.resting hrekey
      split at h2
      · exact ih (hrest.rekeying g) hI0 h2
      · exact Option.some.inj h2 ▸ ⟨hI0, hrest⟩
    · have hI1 := hdone _ hI0 hst hcount
      have hchanged : ((W0.withGroup g (wpaGroupSetkeysdone W0.ap)).group g).changed = true := by
        simp only [Auth.withGroup, Function.update_self, wpaGroupSetkeysdone_grp]
      rw [if_pos hchanged] at h2
      exact ih (setkeysdone_rekeying hrek0) hI1 h2
    · have hI1 := hset _ _ hrek0 hI0 hrekey hsetkeys
      have hrest := (wpaGroupSetkeys_rule (I := fun _ => True) hrek0 trivial
        (fun _ _ _ _ _ _ => trivial) hsetkeys).2
      split at h2
      · exact ih (hrest.rekeying g) hI1 h2
      · exact Option.some.inj h2 ▸ ⟨hI1, hrest⟩

theorem gtkReKey_rekeying (h : Resting W) (g : ℕ) :
    Rekeying g (W.modGroup g fun grp => { grp with gtkReKey := true }) :=
  (h.rekeying g).update rfl _ rfl (h.noRekey g).1 (h.noRekey g).2.2

-- `wpa_rekey_gtk` for an invariant that depends neither on the groups, but for their Counters, nor
-- on the marks of a group key update
theorem wpaRekeyGtk_rule (hmove : ∀ V V', GroupsMove V V' → I V → I V')
    (hflag : ∀ V i b, I V → I (V.modSta i (Sta.updating b)))
    (hstep : ∀ V i V', Resting V → I V → wpaSmStep cr env fuel V i = some V' → I V') {W W' : Auth}
    (hrest : Resting W) (hI : I W) (h : wpaRekeyGtk cr env fuel W = some W') : I W' ∧ Resting W' := by
  have hupdate (V : Auth) (i : ℕ) (V' : Auth) (hV : Resting V) (hIV : I V)
      (hV' : wpaGroupUpdateSta (wpaSmStep cr env fuel) V i = some V') : I V' := by
    rcases wpaGroupUpdateSta_cases hV' with ⟨-, rfl⟩ | ⟨sm, -, -, rfl⟩ | ⟨sm, -, -, hs⟩
    · exact hIV
    · exact hflag V i false hIV
    · refine hstep _ i V' (updatingTrue_resting hV i sm.group) ?_ hs
      exact hflag _ i true (hmove _ _ (modGroup_move V _ _ (.inr ⟨rfl, BitVec.le_refl _⟩)) hIV)
  refine foldlM_rule (I := fun V => I V ∧ Resting V) (fun V g V' hV hV' => ?_) _ ⟨hI, hrest⟩ h
  refine wpaRekeyGtkLoop_rule ?_ ?_ ?_ (gtkReKey_rekeying hV.2 g)
    (hmove _ _ (modGroup_move V g _ (.inr ⟨rfl, BitVec.le_refl _⟩)) hV.1) hV'
  · exact fun U hU => hmove _ _ (modGroup_move U g _ (.inr ⟨rfl, BitVec.le_refl _⟩)) hU
  · exact fun U hU _ _ => hmove _ _ (setkeysdone_move U g) hU
  · exact fun U U' hrek hU _ hset =>
      (wpaGroupSetkeys_rule hrek (hmove _ _ (setkeysStart_move U g) hU) hupdate hset).1

end Rekey

end WpaSupplicant.Authenticator
