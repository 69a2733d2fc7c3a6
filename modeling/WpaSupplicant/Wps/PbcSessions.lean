import WpaSupplicant.Eloop.Theorems
import WpaSupplicant.Wps.RegistrarData

namespace WpaSupplicant.Wps

open Lib.History Lib.Machine Lib.Recency Eloop

variable {now t : OsTime} {sessions l : List PbcSession} {s : PbcSession} {uuidE : Option (BitVec 128)}

def active (now : OsTime) (sessions : List PbcSession) : List PbcSession :=
  sessions.takeWhile fun s => !s.timedOut now

def Counted (uuidE : Option (BitVec 128)) (l : List PbcSession) (u : BitVec 128) : Prop :=
  uuidE = some u ∨ ∃ s ∈ l, s.uuidE = u

theorem le_pbcCount (count : ℕ) (first : Option (BitVec 128)) :
    count ≤ pbcCount now uuidE count first sessions := by
  induction sessions generalizing count first with
  | nil => exact le_rfl
  | cons s rest ih =>
    rw [pbcCount]
    split_ifs
    · exact le_rfl
    · exact ih count first
    · exact ih count _
    · exact (Nat.le_succ count).trans (ih (count + 1) _)

-- Once there is a first Enrollee, the count goes up exactly for an active session of another one.
theorem lt_pbcCount_iff (count : ℕ) (u : BitVec 128) :
    count < pbcCount now uuidE count (some u) sessions ↔
      ∃ s ∈ active now sessions, s.uuidE ≠ u ∧ uuidE ≠ some s.uuidE := by
  induction sessions with
  | nil => simp [pbcCount, active]
  | cons s rest ih =>
    rw [pbcCount]
    by_cases hout : s.timedOut now = true
    · simp [active, hout]
    rw [if_neg hout, active, List.takeWhile_cons_of_pos (by simpa using hout), ← active]
    by_cases hu : some u = some s.uuidE
    · rw [if_pos hu, ih]
      have hsu : s.uuidE = u := (Option.some.inj hu).symm
      simp [hsu]
    rw [if_neg hu, Option.some_or]
    have hsu : s.uuidE ≠ u := fun heq => hu (congrArg some heq.symm)
    by_cases hask : uuidE = some s.uuidE
    · rw [if_pos hask, ih]
      simp [hask]
    rw [if_neg hask]
    constructor
    · intro _
      exact ⟨s, List.mem_cons_self, hsu, hask⟩
    · intro _
      exact le_pbcCount (count + 1) (some u)

theorem two_counted_iff {u : BitVec 128} (hu : Counted uuidE l u) :
    (∃ u v, u ≠ v ∧ Counted uuidE l u ∧ Counted uuidE l v) ↔ ∃ v, v ≠ u ∧ Counted uuidE l v := by
  constructor
  · rintro ⟨v, w, hne, hv, hw⟩
    by_cases hvu : v = u
    · exact ⟨w, fun hwu => hne (hvu.trans hwu.symm), hw⟩
    · exact ⟨v, hvu, hv⟩
  · rintro ⟨v, hne, hv⟩
    exact ⟨v, u, hne, hv, hu⟩

theorem pbcCount_of_active_nil (count : ℕ) (first : Option (BitVec 128)) (h : active now sessions = []) :
    pbcCount now uuidE count first sessions = count := by
  cases sessions with
  | nil => rfl
  | cons s rest =>
    rw [active, List.takeWhile_cons] at h
    split at h
    · cases h
    · rename_i hout
      rw [pbcCount, if_pos (by simpa using hout)]

-- `wps_registrar_pbc_overlap` tells whether there are two UUID-Es.
theorem pbcOverlap_iff :
    pbcOverlap now sessions uuidE = true ↔
      ∃ u v, u ≠ v ∧ Counted uuidE (active now sessions) u ∧ Counted uuidE (active now sessions) v := by
  rw [pbcOverlap, decide_eq_true_eq]
  by_cases hnil : active now sessions = []
  · rw [pbcCount_of_active_nil _ _ hnil, hnil]
    constructor
    · intro h
      split at h <;> omega
    · rintro ⟨u, v, hne, hu | ⟨_, hs, -⟩, hv | ⟨_, hs', -⟩⟩
      · exact absurd (Option.some.inj (hu.symm.trans hv)) hne
      · cases hs'
      · cases hs
      · cases hs
  · obtain ⟨s, rest, rfl⟩ : ∃ s rest, sessions = s :: rest := by
      cases sessions with
      | nil => exact absurd rfl hnil
      | cons s rest => exact ⟨s, rest, rfl⟩
    have hout : ¬s.timedOut now = true := by
      intro hout
      exact hnil (by simp [active, hout])
    have hactive : active now (s :: rest) = s :: active now rest := by
      rw [active, List.takeWhile_cons_of_pos (by simpa using hout), active]
    have hcounted : Counted uuidE (s :: active now rest) s.uuidE := Or.inr ⟨s, List.mem_cons_self, rfl⟩
    rw [pbcCount, if_neg hout, if_neg (by simp), Option.none_or, hactive, two_counted_iff hcounted]
    by_cases hask : uuidE = none ∨ uuidE = some s.uuidE
    · -- the first session brings the count to one
      have hone : (if uuidE = some s.uuidE then if uuidE.isSome then 1 else 0
          else (if uuidE.isSome then 1 else 0) + 1) = 1 := by
        rcases hask with rfl | rfl <;> simp
      rw [hone, lt_pbcCount_iff]
      constructor
      · rintro ⟨t, ht, hne, -⟩
        exact ⟨t.uuidE, hne, Or.inr ⟨t, List.mem_cons_of_mem s ht, rfl⟩⟩
      · rintro ⟨v, hne, hv | ⟨t, ht, rfl⟩⟩
        · rcases hask with rfl | rfl
          · cases hv
          · exact absurd (Option.some.inj hv).symm hne
        · rcases List.mem_cons.mp ht with rfl | ht
          · exact absurd rfl hne
          refine ⟨t, ht, hne, ?_⟩
          rcases hask with rfl | rfl
          · simp
          · exact fun heq => hne (Option.some.inj heq).symm
    · -- the UUID-E that is asked for is another one
      obtain ⟨hnone, hne⟩ := not_or.mp hask
      obtain ⟨u, rfl⟩ := Option.ne_none_iff_exists'.mp hnone
      rw [if_neg hne]
      constructor
      · intro _
        exact ⟨u, fun heq => hne (congrArg some heq), Or.inl rfl⟩
      · intro _
        exact le_pbcCount 2 (some s.uuidE)

def PbcSession.time (s : PbcSession) : ℤ ×ₗ ℤ := timeKey s.timestamp

-- The newest session is in front, there is one for each address and UUID-E, and none is of the future.
structure Orderly (now : OsTime) (sessions : List PbcSession) : Prop where
  recent : Recent PbcSession.key PbcSession.time sessions
  past : ∀ s ∈ sessions, s.time ≤ timeKey now

def LastSeen (s : PbcSession) : List Sight → Prop :=
  Since (fun e => e ≠ .removed s.uuidE ∧ ∀ s', e = .seen s' → s'.key ≠ s.key) fun e _ => e = .seen s

def applySight (sessions : List PbcSession) : Sight → List PbcSession
  | .seen s => touch PbcSession.key (PbcSession.timedOut s.timestamp) s sessions
  | .removed uuidE => removePbcSession sessions uuidE

theorem timedOut_mono {a b : PbcSession} (hab : b.time ≤ a.time) (ha : a.timedOut now = true) :
    b.timedOut now = true := by
  rw [PbcSession.time, PbcSession.time, timeKey_le] at hab
  simp only [PbcSession.timedOut, decide_eq_true_eq] at ha ⊢
  omega

theorem timedOut_later {t' : OsTime} (htt' : timeKey t ≤ timeKey t') (h : s.timedOut t = true) :
    s.timedOut t' = true := by
  rw [timeKey_le] at htt'
  simp only [PbcSession.timedOut, decide_eq_true_eq] at h ⊢
  omega

theorem Orderly.later {t' : OsTime} (h : Orderly t l) (htt' : timeKey t ≤ timeKey t') : Orderly t' l :=
  ⟨h.recent, fun s hs => (h.past s hs).trans htt'⟩

theorem Orderly.active_eq (h : Orderly t l) : active now l = l.filter fun s => !s.timedOut now := by
  apply takeWhile_eq_filter
  refine h.recent.newest.imp ?_
  intro a b hab hb
  rw [Bool.not_eq_true'] at hb ⊢
  exact Bool.eq_false_iff.mpr fun ha => Bool.eq_false_iff.mp hb (timedOut_mono hab ha)

theorem Orderly.sight {e : Sight} (h : Orderly now l) (he : ∀ s, e = .seen s → s.timestamp = now) :
    Orderly now (applySight l e) := by
  cases e with
  | seen s =>
    obtain rfl : s.timestamp = now := he s rfl
    refine ⟨h.recent.touch h.past, ?_⟩
    intro a ha
    rcases (h.recent.mem_touch fun a b => timedOut_mono).mp ha with rfl | ⟨ha, -⟩
    · exact le_rfl
    · exact h.past a ha
  | removed uuidE =>
    exact ⟨h.recent.sublist List.filter_sublist, fun s hs => h.past s (List.mem_of_mem_filter hs)⟩

-- An entry of the history that is about another Enrollee does not count.
theorem lastSeen_cons {e : Sight} {h : List Sight} :
    LastSeen s (e :: h) ↔
      e = .seen s ∨ (e ≠ .removed s.uuidE ∧ ∀ s', e = .seen s' → s'.key ≠ s.key) ∧ LastSeen s h := by
  constructor
  · intro hs
    cases hs with
    | now he => exact Or.inl he
    | later he hl => exact Or.inr ⟨he, hl⟩
  · rintro (he | ⟨he, hl⟩)
    · exact .now he
    · exact .later he hl

structure Recorded (now : OsTime) (sessions : List PbcSession) (h : List Sight) : Prop where
  seen : ∀ s ∈ sessions, LastSeen s h
  kept : ∀ s, LastSeen s h → s.timedOut now = false → s ∈ sessions

theorem Recorded.later {h : List Sight} (hr : Recorded t l h) (hle : timeKey t ≤ timeKey now) :
    Recorded now l h := by
  refine ⟨hr.seen, fun s hs hout => hr.kept s hs ?_⟩
  exact Bool.eq_false_iff.mpr fun hbefore => Bool.eq_false_iff.mp hout (timedOut_later hle hbefore)

theorem Recorded.sight {e : Sight} {h : List Sight} (hl : Orderly now l) (hr : Recorded now l h)
    (he : ∀ s, e = .seen s → s.timestamp = now) : Recorded now (applySight l e) (e :: h) := by
  cases e with
  | seen x =>
    obtain rfl : x.timestamp = now := he x rfl
    have hmem : ∀ s, s ∈ applySight l (.seen x) ↔
        s = x ∨ (s ∈ l ∧ s.key ≠ x.key ∧ s.timedOut x.timestamp = false) :=
      fun s => hl.recent.mem_touch fun a b => timedOut_mono
    constructor
    · intro s hs
      rw [lastSeen_cons]
      rcases (hmem s).mp hs with rfl | ⟨hs, hkey, -⟩
      · exact Or.inl rfl
      refine Or.inr ⟨⟨by simp, ?_⟩, hr.seen s hs⟩
      rintro s' hs'
      cases hs'
      exact Ne.symm hkey
    · intro s hs hout
      rw [hmem]
      rcases lastSeen_cons.1 hs with heq | ⟨⟨-, hkey⟩, hs⟩
      · cases heq
        exact Or.inl rfl
      · exact Or.inr ⟨hr.kept s hs hout, Ne.symm (hkey x rfl), hout⟩
  | removed uuidE =>
    constructor
    · intro s hs
      obtain ⟨hs, hne⟩ := List.mem_filter.mp hs
      refine lastSeen_cons.2 (Or.inr ⟨⟨?_, by simp⟩, hr.seen s hs⟩)
      rintro heq
      cases heq
      simp at hne
    · intro s hs hout
      rcases lastSeen_cons.1 hs with heq | ⟨⟨hne, -⟩, hs⟩
      · cases heq
      · refine List.mem_filter.mpr ⟨hr.kept s hs hout, ?_⟩
        simpa using fun heq => hne (by rw [heq])

section Frame

variable (reg : RegistrarData)

namespace RegistrarData

@[simp] theorem removePin_pbcSessions (p : RegPin) : (reg.removePin p).pbcSessions = reg.pbcSessions := rfl

@[simp] theorem removeFirst_pbcSessions (P : Pin → Bool) :
    (reg.removeFirst P).pbcSessions = reg.pbcSessions := by
  rw [removeFirst]
  split <;> rfl

@[simp] theorem foldl_removePin_pbcSessions (pins : List RegPin) :
    (pins.foldl removePin reg).pbcSessions = reg.pbcSessions := by
  induction pins generalizing reg with
  | nil => rfl
  | cons p pins ih => rw [List.foldl_cons, ih, removePin_pbcSessions]

@[simp] theorem getPin_pbcSessions (uuid : BitVec 128) :
    (reg.getPin now uuid).1.pbcSessions = reg.pbcSessions := by
  have hexpire : (reg.expirePins now).pbcSessions = reg.pbcSessions := foldl_removePin_pbcSessions reg _
  rw [getPin, ← hexpire]
  split
  · split <;> rfl
  split
  · rfl
  · split <;> rfl

@[simp] theorem unlockPin_pbcSessions (uuid : BitVec 128) :
    (reg.unlockPin uuid).pbcSessions = reg.pbcSessions := by
  rw [unlockPin]
  split
  · rfl
  split
  · exact removeFirst_pbcSessions reg _
  · rfl

@[simp] theorem cancel_pbcSessions : reg.cancel.pbcSessions = reg.pbcSessions := by
  rw [cancel]
  split
  · rfl
  split
  · exact removeFirst_pbcSessions reg.pinCompleted _
  · rfl

@[simp] theorem buttonPushed_pbcSessions (p2pDevAddr : Option Addr) :
    (reg.buttonPushed now p2pDevAddr).pbcSessions = reg.pbcSessions := by
  rw [buttonPushed]
  split <;> rfl

end RegistrarData

theorem addPbcSession_eq (call : RegCall) (addr : Addr) (u : BitVec 128) :
    addPbcSession call.alloc call.now reg.pbcSessions addr u =
      (reg.sighting call addr u).elim reg.pbcSessions (applySight reg.pbcSessions) := by
  rw [addPbcSession, RegistrarData.sighting]
  split <;> rfl

theorem exec_pbcSessions (id : ℕ) (call : RegCall) :
    (reg.exec id call).pbcSessions =
      (reg.sight call).elim reg.pbcSessions (applySight reg.pbcSessions) := by
  obtain ⟨t, alloc, op⟩ := call
  cases op with
  | addPin addr uuid pin timeout =>
    rw [RegistrarData.exec]
    dsimp only
    split <;> rfl
  | getPin uuid => exact reg.getPin_pbcSessions uuid
  | invalidatePin uuid => exact reg.removeFirst_pbcSessions _
  | unlockPin uuid => exact reg.unlockPin_pbcSessions uuid
  | buttonPushed p2pDevAddr => exact reg.buttonPushed_pbcSessions p2pDevAddr
  | pbcTimeout => rfl
  | selectedTimeout => rfl
  | complete pbc uuidE => cases pbc <;> rfl
  | cancel => exact reg.cancel_pbcSessions
  | probeReq addr msg =>
    simp only [RegistrarData.exec, RegistrarData.probeReqRx, RegistrarData.sight]
    cases RegistrarData.probePbc msg with
    | none => rfl
    | some u => exact addPbcSession_eq reg ⟨t, alloc, .probeReq addr msg⟩ addr u
  | m1 p2pDevAddr env ctx wps attr =>
    simp only [RegistrarData.exec, RegistrarData.processM1, RegistrarData.sight]
    cases reg.m1Pbc env ctx wps attr with
    | none => rfl
    | some w =>
      dsimp only
      split
      · rfl
      · exact addPbcSession_eq reg ⟨t, alloc, .m1 p2pDevAddr env ctx wps attr⟩ w.macAddrE w.uuidE

theorem sight_timestamp (call : RegCall) (h : reg.sight call = some (.seen s)) : s.timestamp = call.now := by
  have hsighting : ∀ addr u, reg.sighting call addr u = some (.seen s) → s.timestamp = call.now := by
    intro addr u hs
    rw [RegistrarData.sighting] at hs
    split at hs
    · cases hs
      rfl
    · cases hs
  obtain ⟨t, alloc, op⟩ := call
  cases op with
  | complete pbc uuidE => cases pbc <;> cases h
  | probeReq addr msg =>
    obtain ⟨u, -, hs⟩ := Option.bind_eq_some_iff.mp h
    exact hsighting addr u hs
  | m1 p2pDevAddr env ctx wps attr =>
    simp only [RegistrarData.sight] at h
    cases hm : reg.m1Pbc env ctx wps attr with
    | none =>
      rw [hm] at h
      cases h
    | some w =>
      rw [hm] at h
      dsimp only at h
      split at h
      · cases h
      · exact hsighting _ _ h
  | _ => cases h

end Frame

def inTime (w : RegWorld) (call : RegCall) : Prop := osTimeBefore call.now w.now = false

instance : ∀ w call, Decidable (inTime w call) := fun _ _ => inferInstanceAs (Decidable (_ = _))

structure SessionsRight (w : RegWorld) : Prop where
  orderly : Orderly w.now w.reg.pbcSessions
  recorded : Recorded w.now w.reg.pbcSessions w.sights

theorem SessionsRight.exec {w : RegWorld} (h : SessionsRight w) (call : RegCall) (htime : inTime w call) :
    SessionsRight (w.exec call) := by
  have hle : timeKey w.now ≤ timeKey call.now := (osTimeBefore_eq_false _ _).mp htime
  have horderly := h.orderly.later hle
  have hrecorded := h.recorded.later hle
  have hsessions : (w.exec call).reg.pbcSessions = _ := exec_pbcSessions w.reg w.next call
  cases hsight : w.reg.sight call with
  | none =>
    have hsights : (w.exec call).sights = w.sights := by rw [RegWorld.exec, hsight]; rfl
    rw [hsight] at hsessions
    constructor
    · rw [hsessions]
      exact horderly
    · rw [hsessions, hsights]
      exact hrecorded
  | some e =>
    have hsights : (w.exec call).sights = e :: w.sights := by rw [RegWorld.exec, hsight]; rfl
    have he : ∀ s, e = .seen s → s.timestamp = call.now := by
      rintro s rfl
      exact sight_timestamp w.reg call hsight
    rw [hsight] at hsessions
    constructor
    · rw [hsessions]
      exact horderly.sight he
    · rw [hsessions, hsights]
      exact hrecorded.sight horderly he

theorem sessions_right {t₀ : OsTime} {w : RegWorld} (h : Runs RegWorld.exec inTime (.start t₀) w) :
    SessionsRight w := by
  refine h.rule ⟨⟨.nil, by simp [RegWorld.start]⟩, ⟨by simp [RegWorld.start], ?_⟩⟩ fun w call hw htime => hw.exec call htime
  intro s hs
  cases hs

-- The list of the PBC sessions is ordered and exact, and so is the overlap: there are two UUID-Es among the one
-- that is asked for and those of the Enrollees that were seen within the walk time.
theorem pbc_overlap_exact {t₀ : OsTime} {w : RegWorld} (h : Runs RegWorld.exec inTime (.start t₀) w) :
    (w.reg.pbcSessions.Pairwise fun a b => osTimeBefore a.timestamp b.timestamp = false) ∧
      (w.reg.pbcSessions.map PbcSession.key).Nodup ∧
      ∀ now uuidE, osTimeBefore now w.now = false →
        (pbcOverlap now w.reg.pbcSessions uuidE = true ↔
          ∃ u v, u ≠ v ∧ Counted uuidE (w.reg.pbcSessions.filter fun s => !s.timedOut now) u ∧
            Counted uuidE (w.reg.pbcSessions.filter fun s => !s.timedOut now) v) ∧
        ∀ s, s ∈ w.reg.pbcSessions.filter (fun s => !s.timedOut now) ↔
          LastSeen s w.sights ∧ now.sec ≤ s.timestamp.sec + pbcWalkTime := by
  have hw := sessions_right h
  refine ⟨?_, hw.orderly.recent.keys, ?_⟩
  · exact hw.orderly.recent.newest.imp fun hab => (osTimeBefore_eq_false _ _).mpr hab
  · intro now uuidE hnow
    refine ⟨?_, ?_⟩
    · rw [pbcOverlap_iff, hw.orderly.active_eq]
    · intro s
      have hlater := hw.recorded.later ((osTimeBefore_eq_false _ _).mp hnow)
      have hout : s.timedOut now = false ↔ now.sec ≤ s.timestamp.sec + pbcWalkTime := by
        simp [PbcSession.timedOut]
      rw [List.mem_filter, Bool.not_eq_true', hout]
      constructor
      · rintro ⟨hs, hin⟩
        exact ⟨hlater.seen s hs, hin⟩
      · rintro ⟨hs, hin⟩
        exact ⟨hlater.kept s hs (hout.mpr hin), hin⟩

def probeForPbc (uuidE : ℕ) : Octets :=
  tlv attrConfigMethods [0, 0x80] ++ tlv attrDevPasswordId [0, 4] ++ tlv attrUuidE (Lib.Octets.toBE 16 uuidE)

def twoProbes : List RegCall :=
  [⟨⟨0, 0⟩, true, .probeReq 1 (probeForPbc 1)⟩, ⟨⟨60, 0⟩, true, .probeReq 2 (probeForPbc 2)⟩]

def afterTwoProbes : RegWorld := twoProbes.foldl RegWorld.exec (.start ⟨0, 0⟩)

set_option maxRecDepth 100000 in
theorem pbc_overlap_exact_two_probes :
    pbcOverlap ⟨100, 0⟩ afterTwoProbes.reg.pbcSessions none = true ∧
      ∃ u v, u ≠ v ∧ Counted none (afterTwoProbes.reg.pbcSessions.filter fun s => !s.timedOut ⟨100, 0⟩) u ∧
        Counted none (afterTwoProbes.reg.pbcSessions.filter fun s => !s.timedOut ⟨100, 0⟩) v := by
  have hrun : Runs RegWorld.exec inTime (.start ⟨0, 0⟩) afterTwoProbes := Runs.of_list twoProbes (by decide)
  have hoverlap : pbcOverlap ⟨100, 0⟩ afterTwoProbes.reg.pbcSessions none = true := rfl
  exact ⟨hoverlap, (((pbc_overlap_exact hrun).2.2 ⟨100, 0⟩ none rfl).1).mp hoverlap⟩

end WpaSupplicant.Wps
