import WpaSupplicant.Ap.Ft
import WpaSupplicant.Lib.Machine

namespace WpaSupplicant.Ap.Ft

open Lib.Octets Lib.Machine Mlme

variable {cr : FtCrypto} {wpsValid : Octets → Bool} {ap : FtAp} {addr : Addr}

def FtAp.machine (ap : FtAp) (addr : Addr) : Option FtSm := (ap.stas addr).bind FtSta.sm

structure FtAp.Initial (ap : FtAp) : Prop where
  stas : ∀ addr, ap.stas addr = none

-- What one step does to a state machine, but for the completion of an association
inductive SmStep (cr : FtCrypto) (ap : FtAp) (addr : Addr) : FtSm → FtSm → Prop where
  | terms (sm : FtSm) (t : Terms) : SmStep cr ap addr sm { sm with terms := t }
  | request (sm : FtSm) (ies : Octets) (ans : FtAnswers) :
      SmStep cr ap addr sm (wpaFtProcessAuthReq cr ap.conf ap.cache addr sm ies ans).1
  | event (sm : FtSm) (event : SmEvent) (setKey : Bool) (hevent : event ≠ .assocFt) :
      SmStep cr ap addr sm (wpaAuthSmEvent sm event setKey)
  | assign (sm : FtSm) (u : SmUpdate) : SmStep cr ap addr sm (sm.assign u)

theorem SmStep.refl (sm : FtSm) : SmStep cr ap addr sm sm := .terms sm sm.terms

-- The state machine was there, or it is a new one.
def Before (ap : FtAp) (addr : Addr) (sm : FtSm) : Prop := ap.machine addr = some sm ∨ sm = {}

-- A state machine after a step: an association is completed, or it takes one of the steps above.
def Changed (cr : FtCrypto) (ap : FtAp) (op : FtOp) (addr : Addr) (sm' : FtSm) : Prop :=
  (∃ sm, Before ap addr sm ∧ SmStep cr ap addr sm sm') ∨
    ∃ sta sm setKey, op = .assocCb addr .success true setKey ∧ ap.stas addr = some sta ∧
      sta.sm = some sm ∧ sta.info.ext.authAlg = wlanAuthFt ∧ sm' = wpaAuthSmEvent sm .assocFt setKey

theorem Changed.same {op : FtOp} {sm : FtSm} (h : ap.machine addr = some sm) :
    Changed cr ap op addr sm := .inl ⟨sm, .inl h, .refl sm⟩

variable {sta : FtSta} {sm' : FtSm} {ans : FtAuthAnswers}

theorem machine_set {other : Addr} {sm : FtSm} (h : (ap.set addr sta).machine other = some sm) :
    (other = addr ∧ sta.sm = some sm) ∨ ap.machine other = some sm := by
  by_cases hother : other = addr
  · subst hother
    simp only [FtAp.machine, FtAp.set, Function.update_self, Option.bind_some] at h
    exact .inl ⟨rfl, h⟩
  · simp only [FtAp.machine, FtAp.set, Function.update_of_ne hother] at h
    exact .inr h

-- The station that is written has a state machine that took a step.
theorem Changed.set {op : FtOp} {other : Addr} (h : (ap.set addr sta).machine other = some sm')
    (hsta : ∀ sm', sta.sm = some sm' → Changed cr ap op addr sm') : Changed cr ap op other sm' := by
  rcases machine_set h with ⟨rfl, hsm⟩ | hold
  · exact hsta sm' hsm
  · exact .same hold

theorem apStaAdd_before {alloc : Bool} {sm : FtSm} (h : ap.apStaAdd addr alloc = some sta)
    (hsm : sta.sm = some sm) : ap.machine addr = some sm := by
  rw [FtAp.apStaAdd] at h
  split at h
  · rename_i old hold
    cases h
    rw [FtAp.machine, hold]
    exact hsm
  · split at h
    · cases h
      cases hsm
    · cases h

theorem wpaAuthStaInit_cases {alloc : Bool} {sm : FtSm} (h : wpaAuthStaInit sta alloc = some sm) :
    sta.sm = some sm ∨ sm = {} := by
  rw [wpaAuthStaInit] at h
  split at h
  · rename_i old hold
    cases h
    exact .inl hold
  split at h
  · cases h
    exact .inr rfl
  · cases h

theorem authStation_changed {f : FtAuthFrame}
    (hold : ∀ {sm}, sta.sm = some sm → ap.machine f.sa = some sm)
    (h : (authStation cr ap sta f ans).machine addr = some sm') : Changed cr ap (.auth f ans) addr sm' := by
  rw [authStation] at h
  split at h
  · exact .set h fun sm hsm => .same (hold hsm)
  dsimp only at h
  split at h
  · split at h
    · exact .set h fun sm hsm => .same (hold hsm)
    rename_i sm hinit
    refine .set h fun sm'' hsm'' => .inl ⟨sm, ?_, ?_⟩
    · rcases wpaAuthStaInit_cases hinit with hsm | rfl
      · exact .inl (hold hsm)
      · exact .inr rfl
    · cases hsm''
      exact .request sm f.ies ans.ft
  · refine .set h fun sm'' hsm'' => ?_
    obtain ⟨sm, hsm, rfl⟩ := Option.map_eq_some_iff.mp hsm''
    refine .inl ⟨sm, .inl (hold hsm), ?_⟩
    rw [authEvent]
    split
    · exact .event sm .auth true (by simp)
    · exact .refl sm

theorem handleAuth_changed {f : FtAuthFrame} (h : (handleAuth cr ap f ans).machine addr = some sm') :
    Changed cr ap (.auth f ans) addr sm' := by
  rw [handleAuth] at h
  split at h
  · exact .same h
  split at h
  · exact .same h
  · exact .same h
  all_goals
    split at h
    · exact .same h
    · rename_i sta hsta
      exact authStation_changed (apStaAdd_before hsta) h

theorem wpaFtRrbRxRequest_changed {spa : Addr} {body : Octets}
    (h : (wpaFtRrbRxRequest cr ap spa body ans).machine addr = some sm') :
    Changed cr ap (.rrbRequest spa body ans) addr sm' := by
  rw [wpaFtRrbRxRequest] at h
  split at h
  · exact .same h
  rename_i sta hsta
  split at h
  · by_cases haddr : addr = spa
    · subst haddr
      simp [FtAp.machine, FtAp.free] at h
    · simp only [FtAp.machine, FtAp.free, Function.update_of_ne haddr] at h
      exact .same h
  · rename_i sm hinit
    refine .set h fun sm'' hsm'' => .inl ⟨sm, ?_, ?_⟩
    · rcases wpaAuthStaInit_cases hinit with hsm | rfl
      · exact .inl (apStaAdd_before hsta hsm)
      · exact .inr rfl
    · cases hsm''
      exact .request sm body ans.ft

theorem checkAssocIes_changed {conf : FtConfig} {ies : Octets} {reassoc : Bool} {ans : FtAssocAnswers}
    (h : (checkAssocIes cr wpsValid conf addr sta ies reassoc ans).1.sm = some sm') :
    ∃ sm t, (sta.sm = some sm ∨ sm = {}) ∧ sm' = { sm with terms := t } := by
  have hsame (h : sta.sm = some sm') : ∃ sm t, (sta.sm = some sm ∨ sm = {}) ∧
      sm' = { sm with terms := t } := ⟨sm', sm'.terms, .inl h, rfl⟩
  simp only [checkAssocIes] at h
  split at h
  · exact hsame h
  split at h
  · exact hsame h
  split at h
  · exact hsame h
  · obtain ⟨sm, hsm, rfl⟩ := Option.map_eq_some_iff.mp h
    exact ⟨sm, _, .inl hsm, rfl⟩
  rw [checkWpaIe] at h
  split at h
  · exact hsame h
  rename_i sm hinit
  -- the state machine keeps all but the terms, wherever the checks end
  have hterms {t : Terms} (h : some { sm with terms := t } = some sm') : ∃ sm t,
      (sta.sm = some sm ∨ sm = {}) ∧ sm' = { sm with terms := t } :=
    ⟨sm, t, wpaAuthStaInit_cases hinit, (Option.some.inj h).symm⟩
  dsimp only at h
  split at h
  · exact hterms h
  rw [checkFtAssoc] at h
  split at h
  · exact hterms h
  · exact hterms h

theorem handleAssoc_changed {f : AssocFrame} {ans : FtAssocAnswers}
    (h : (handleAssoc cr wpsValid ap f ans).machine addr = some sm') :
    Changed cr ap (.assoc f ans) addr sm' := by
  rw [handleAssoc] at h
  split at h
  · exact .same h
  rename_i sta hsta
  have hchecked (sm' : FtSm)
      (h : (checkAssocIes cr wpsValid ap.conf f.sa sta f.ies f.reassoc ans).1.sm = some sm') :
      Changed cr ap (.assoc f ans) f.sa sm' := by
    obtain ⟨sm, t, hsm, rfl⟩ := checkAssocIes_changed h
    refine .inl ⟨sm, ?_, .terms sm t⟩
    rcases hsm with hsm | rfl
    · exact .inl (by rw [FtAp.machine, hsta]; exact hsm)
    · exact .inr rfl
  split at h
  · exact .same h
  split at h
  · exact .same h
  split at h
  · exact .same h
  dsimp only at h
  split at h
  · exact .set h hchecked
  split at h
  · exact .set h hchecked
  · exact .set h hchecked

theorem handleAssocCb_changed {da : Addr} {status : Status} {added setKey : Bool}
    (h : (handleAssocCb ap da status added setKey).machine addr = some sm') :
    Changed cr ap (.assocCb da status added setKey) addr sm' := by
  rw [handleAssocCb] at h
  split at h
  · exact .same h
  rename_i sta hsta
  have hold {sm : FtSm} (hsm : sta.sm = some sm) : ap.machine da = some sm := by
    rw [FtAp.machine, hsta]
    exact hsm
  split at h
  · exact .same h
  rename_i hstatus
  dsimp only at h
  split at h
  · exact .set h fun sm hsm => .same (hold hsm)
  rename_i hadded
  rcases machine_set h with ⟨rfl, hsm'⟩ | hother
  · obtain ⟨sm, hsm, rfl⟩ := Option.map_eq_some_iff.mp hsm'
    by_cases hft : sta.info.ext.authAlg = wlanAuthFt
    · refine .inr ⟨sta, sm, setKey, ?_, hsta, hsm, hft, by simp [hft]⟩
      rw [not_not.mp hstatus, show added = true by simpa using hadded]
    refine .inl ⟨sm, .inl (hold hsm), ?_⟩
    simp only [hft, decide_false, Bool.false_eq_true, if_false]
    exact .event sm .assoc setKey (by simp)
  · exact .same hother

theorem modifySm_changed {op : FtOp} {other : Addr} {g : FtSm → FtSm}
    (hg : ∀ sm, SmStep cr ap other sm (g sm)) (h : (ap.modifySm other g).machine addr = some sm') :
    Changed cr ap op addr sm' := by
  rw [FtAp.modifySm] at h
  split at h
  · exact .same h
  rename_i sta hsta
  refine .set h fun sm'' hsm'' => ?_
  obtain ⟨sm, hsm, rfl⟩ := Option.map_eq_some_iff.mp hsm''
  refine .inl ⟨sm, .inl ?_, hg sm⟩
  rw [FtAp.machine, hsta]
  exact hsm

theorem exec_changed {op : FtOp} (h : (exec cr wpsValid ap op).machine addr = some sm') :
    Changed cr ap op addr sm' := by
  cases op with
  | auth f ans => exact handleAuth_changed h
  | rrbRequest spa body ans => exact wpaFtRrbRxRequest_changed h
  | assoc f ans => exact handleAssoc_changed h
  | assocCb da status added setKey => exact handleAssocCb_changed h
  | event other event setKey =>
    rw [exec] at h
    split at h
    · exact .same h
    · rename_i hevent
      exact modifySm_changed (fun sm => .event sm event setKey hevent) h
  | stateMachine other u => exact modifySm_changed (fun sm => .assign sm u) h
  | storePmkR1 r1 => exact .same h
  | flags other flags =>
    rw [exec] at h
    split at h
    · exact .same h
    rename_i sta hsta
    refine .set h fun sm hsm => .same ?_
    rw [FtAp.machine, hsta]
    exact hsm
  | free other =>
    by_cases haddr : addr = other
    · subst haddr
      simp [exec, FtAp.machine, FtAp.free] at h
    · simp only [exec, FtAp.machine, FtAp.free, Function.update_of_ne haddr] at h
      exact .same h

-- The configuration does not change, and no PMK-R1 is taken out of the cache.
structure Grows (ap ap' : FtAp) : Prop where
  conf : ap'.conf = ap.conf
  cache : ∀ r1 ∈ ap.cache, r1 ∈ ap'.cache

theorem Grows.of_eq {ap' : FtAp} (hconf : ap'.conf = ap.conf) (hcache : ap'.cache = ap.cache) :
    Grows ap ap' := ⟨hconf, fun r1 h => by rw [hcache]; exact h⟩

theorem authStation_grows (sta : FtSta) (f : FtAuthFrame) (ans : FtAuthAnswers) :
    Grows ap (authStation cr ap sta f ans) := by
  simp only [authStation]
  split
  · exact .of_eq rfl rfl
  split
  · split
    · exact .of_eq rfl rfl
    · exact .of_eq rfl rfl
  · exact .of_eq rfl rfl

theorem handleAuth_grows (f : FtAuthFrame) (ans : FtAuthAnswers) :
    Grows ap (handleAuth cr ap f ans) := by
  rw [handleAuth]
  split
  · exact .of_eq rfl rfl
  split
  · exact .of_eq rfl rfl
  · exact .of_eq rfl rfl
  all_goals
    split
    · exact .of_eq rfl rfl
    · exact authStation_grows _ f ans

theorem handleAssoc_grows (f : AssocFrame) (ans : FtAssocAnswers) :
    Grows ap (handleAssoc cr wpsValid ap f ans) := by
  simp only [handleAssoc]
  split
  · exact .of_eq rfl rfl
  repeat' split
  all_goals exact .of_eq rfl rfl

theorem exec_grows (op : FtOp) : Grows ap (exec cr wpsValid ap op) := by
  cases op with
  | auth f ans => exact handleAuth_grows f ans
  | rrbRequest spa body ans =>
    rw [exec, wpaFtRrbRxRequest]
    split
    · exact .of_eq rfl rfl
    split
    · exact .of_eq rfl rfl
    · exact .of_eq rfl rfl
  | assoc f ans => exact handleAssoc_grows f ans
  | assocCb da status added setKey =>
    simp only [exec, handleAssocCb]
    repeat' split
    all_goals exact .of_eq rfl rfl
  | event other event setKey =>
    rw [exec, FtAp.modifySm]
    repeat' split
    all_goals exact .of_eq rfl rfl
  | stateMachine other u =>
    rw [exec, FtAp.modifySm]
    split
    · exact .of_eq rfl rfl
    · exact .of_eq rfl rfl
  | storePmkR1 r1 => exact ⟨rfl, fun r1 h => List.mem_cons_of_mem _ h⟩
  | flags other flags =>
    rw [exec]
    split
    · exact .of_eq rfl rfl
    · exact .of_eq rfl rfl
  | free other => exact .of_eq rfl rfl

-- What every step preserves holds of the state machine of every station in every run.
theorem Runs.machines {ok : FtAp → FtOp → Prop} {start : FtAp} {P : FtAp → Addr → FtSm → Prop}
    (hstart : start.Initial) (hrun : Runs (exec cr wpsValid) ok start ap)
    (hinit : ∀ ap addr, P ap addr {})
    (hmono : ∀ ap ap' addr sm, Grows ap ap' → P ap addr sm → P ap' addr sm)
    (hstep : ∀ ap addr sm sm', P ap addr sm → SmStep cr ap addr sm sm' → P ap addr sm')
    (hassoc : ∀ ap addr sta sm setKey, ok ap (.assocCb addr .success true setKey) →
      ap.stas addr = some sta → sta.sm = some sm → sta.info.ext.authAlg = wlanAuthFt →
      P ap addr sm → P ap addr (wpaAuthSmEvent sm .assocFt setKey))
    (sm : FtSm) (hsm : ap.machine addr = some sm) : P ap addr sm := by
  refine hrun.rule (I := fun ap => ∀ addr sm, ap.machine addr = some sm → P ap addr sm)
    (fun addr sm h => ?_) (fun ap op hap hop addr sm' h => hmono ap _ addr sm' (exec_grows op) ?_) addr sm hsm
  · rw [FtAp.machine, hstart.stas] at h
    cases h
  · rcases exec_changed h with ⟨sm, hbefore, hsmstep⟩ | ⟨sta, sm, setKey, rfl, hsta, hsm, hft, rfl⟩
    · refine hstep ap addr sm sm' ?_ hsmstep
      rcases hbefore with hold | rfl
      · exact hap addr sm hold
      · exact hinit ap addr
    · refine hassoc ap addr sta sm setKey hop hsta hsm hft (hap addr sm ?_)
      rw [FtAp.machine, hsta]
      exact hsm

end WpaSupplicant.Ap.Ft
