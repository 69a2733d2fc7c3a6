import WpaSupplicant.GasExchange.Client
import WpaSupplicant.GasExchange.Server

namespace WpaSupplicant.GasExchange

open GasQuery Ap Lib.Machine

variable {κ : Type} {conf : HsConfig} {x : Exchange} {cb : κ} {s s' : Sys κ}

def Asks (x : Exchange) (cb : κ) (g : Gas κ) (back armed : Bool) (k : ℕ) (got : Octets) : Prop :=
  ∃ q, gasQueryGetPending g x.ap x.dialogToken = some q ∧ q.cb = cb ∧ q.waitComeback = back ∧
    q.comebackArmed = armed ∧ (back = true → q.advProto = some advProtoAnqp) ∧
    q.nextFragId = UInt8.ofNat k ∧ q.resp.getD [] = got

def response (conf : HsConfig) (x : Exchange) : Octets := (conf.payload x.request none).1

def success (conf : HsConfig) (x : Exchange) (cb : κ) : Callback κ where
  cb := cb
  dst := x.ap
  dialogToken := x.dialogToken
  result := .success
  advProto := some advProtoAnqp
  resp := some (response conf x)
  statusCode := statusSuccess

-- Where the exchange is, with a bound on the steps that are left. The fragments are numbered, and
-- `k` of them are with the station.
inductive Phase (conf : HsConfig) (x : Exchange) (cb : κ) (s : Sys κ) : ℕ → Prop where
  | requested (frame : Octets) (haction : frame.getD 1 0 = gasInitialReq)
      (htoken : frame.getD 2 0 = x.dialogToken) (htoAp : s.toAp = [frame]) (htoSta : s.toSta = [])
      (hresults : s.results = []) (hap : ∀ d, ¬ Ours x s.ap d)
      (hsta : Asks x cb s.sta false false 0 []) :
      Phase conf x cb s (2 * (response conf x).length + 5)
  | answered (htoAp : s.toAp = [])
      (htoSta : s.toSta = [encode (.initialResp x.dialogToken 0 0 (response conf x))])
      (hresults : s.results = []) (hap : ∀ d, ¬ Ours x s.ap d)
      (hsta : Asks x cb s.sta false false 0 []) : Phase conf x cb s 1
  | promised (delay : UInt16) (hdelay : delay ≠ 0) (htoAp : s.toAp = [])
      (htoSta : s.toSta = [encode (.initialResp x.dialogToken 0 delay [])])
      (hresults : s.results = []) (hap : Serving x s.ap (response conf x) 0 0)
      (hsta : Asks x cb s.sta false false 0 []) :
      Phase conf x cb s (2 * (response conf x).length + 4)
  | waiting (htoAp : s.toAp = []) (htoSta : s.toSta = []) (hresults : s.results = [])
      (hap : Serving x s.ap (response conf x) 0 0) (hsta : Asks x cb s.sta true true 0 []) :
      Phase conf x cb s (2 * (response conf x).length + 3)
  | asking (k : ℕ) (hk : k = 0 ∨ k * conf.gasFragLimit < (response conf x).length)
      (htoAp : s.toAp = [gasBuildComebackReq x.dialogToken]) (htoSta : s.toSta = [])
      (hresults : s.results = [])
      (hap : Serving x s.ap (response conf x) (k * conf.gasFragLimit) (UInt8.ofNat k))
      (hsta : Asks x cb s.sta true false k ((response conf x).take (k * conf.gasFragLimit))) :
      Phase conf x cb s (2 * ((response conf x).length - k * conf.gasFragLimit) + 2)
  | fragment (k : ℕ) (hk : (k + 1) * conf.gasFragLimit < (response conf x).length)
      (htoAp : s.toAp = [])
      (htoSta : s.toSta = [encode (.comebackResp x.dialogToken 0 (UInt8.ofNat k) true
        (((response conf x).drop (k * conf.gasFragLimit)).take conf.gasFragLimit))])
      (hresults : s.results = [])
      (hap : Serving x s.ap (response conf x) ((k + 1) * conf.gasFragLimit) (UInt8.ofNat (k + 1)))
      (hsta : Asks x cb s.sta true false k ((response conf x).take (k * conf.gasFragLimit))) :
      Phase conf x cb s (2 * ((response conf x).length - (k + 1) * conf.gasFragLimit) + 3)
  | last (k : ℕ) (hk : k = 0 ∨ k * conf.gasFragLimit < (response conf x).length)
      (htoAp : s.toAp = [])
      (htoSta : s.toSta = [encode (.comebackResp x.dialogToken 0 (UInt8.ofNat k) false
        ((response conf x).drop (k * conf.gasFragLimit)))])
      (hresults : s.results = []) (hap : ∀ d, ¬ Ours x s.ap d)
      (hsta : Asks x cb s.sta true false k ((response conf x).take (k * conf.gasFragLimit))) :
      Phase conf x cb s 1
  | completed (htoAp : s.toAp = []) (htoSta : s.toSta = [])
      (hresults : s.results = [success conf x cb]) (hap : ∀ d, ¬ Ours x s.ap d)
      (hsta : gasQueryGetPending s.sta x.ap x.dialogToken = none) : Phase conf x cb s 0

theorem Phase.congr {n : ℕ} (h : Phase conf x cb s n) (htoAp : s'.toAp = s.toAp)
    (htoSta : s'.toSta = s.toSta) (hresults : s'.results = s.results)
    (hours : ∀ d, Ours x s'.ap d → Ours x s.ap d)
    (hserving : ∀ pos fragId, Serving x s.ap (response conf x) pos fragId →
      Serving x s'.ap (response conf x) pos fragId)
    (hget : gasQueryGetPending s'.sta x.ap x.dialogToken =
      gasQueryGetPending s.sta x.ap x.dialogToken) : Phase conf x cb s' n := by
  have hno (hap : ∀ d, ¬ Ours x s.ap d) (d : DialogRef) : ¬ Ours x s'.ap d :=
    fun hd => hap d (hours d hd)
  have hasks {back armed : Bool} {k : ℕ} {got : Octets} (hsta : Asks x cb s.sta back armed k got) :
      Asks x cb s'.sta back armed k got := by
    obtain ⟨q, hq, hrest⟩ := hsta
    exact ⟨q, hget.trans hq, hrest⟩
  cases h with
  | requested frame haction htoken h1 h2 h3 hap hsta =>
    exact .requested frame haction htoken (htoAp.trans h1) (htoSta.trans h2) (hresults.trans h3)
      (hno hap) (hasks hsta)
  | answered h1 h2 h3 hap hsta =>
    exact .answered (htoAp.trans h1) (htoSta.trans h2) (hresults.trans h3) (hno hap) (hasks hsta)
  | promised delay hdelay h1 h2 h3 hap hsta =>
    exact .promised delay hdelay (htoAp.trans h1) (htoSta.trans h2) (hresults.trans h3)
      (hserving _ _ hap) (hasks hsta)
  | waiting h1 h2 h3 hap hsta =>
    exact .waiting (htoAp.trans h1) (htoSta.trans h2) (hresults.trans h3) (hserving _ _ hap)
      (hasks hsta)
  | asking k hk h1 h2 h3 hap hsta =>
    exact .asking k hk (htoAp.trans h1) (htoSta.trans h2) (hresults.trans h3) (hserving _ _ hap)
      (hasks hsta)
  | fragment k hk h1 h2 h3 hap hsta =>
    exact .fragment k hk (htoAp.trans h1) (htoSta.trans h2) (hresults.trans h3) (hserving _ _ hap)
      (hasks hsta)
  | last k hk h1 h2 h3 hap hsta =>
    exact .last k hk (htoAp.trans h1) (htoSta.trans h2) (hresults.trans h3) (hno hap) (hasks hsta)
  | completed h1 h2 h3 hap hsta =>
    exact .completed (htoAp.trans h1) (htoSta.trans h2) (hresults.trans h3) (hno hap)
      (hget.trans hsta)

theorem toSta_apStep {op : HsOp} {msg : GasMsg} {n : Option ℕ}
    (hsent : (hsExec conf s.ap op).sent = s.ap.sent ++ [⟨x.sta, msg, n⟩])
    (htoken : msg.dialogToken = x.dialogToken) :
    (apStep conf x s op).toSta = s.toSta ++ [encode msg] := by
  simp only [apStep, hsent, List.drop_left]
  simp [Exchange.ofAp, htoken]

theorem staStep_ap (op : Op κ) : (staStep x s op).ap = s.ap := rfl

theorem staStep_does {op : Op κ} {q' : Option (Query κ)} {frames : List Octets}
    {c : Option (Callback κ)} (h : Does x s.sta (exec s.sta op, callback s.sta op) q' frames c) :
    gasQueryGetPending (staStep x s op).sta x.ap x.dialogToken = q' ∧
      (staStep x s op).toAp = s.toAp ++ frames ∧
      (staStep x s op).results = s.results ++ c.toList.filter x.ofCallback := by
  obtain ⟨hget, hframes, hc⟩ := h
  refine ⟨hget, ?_, ?_⟩
  · simp only [staStep, hframes]
  · have hc : callback s.sta op = c := hc
    simp only [staStep, hc]

theorem requested_delivered (hs : HsInv s.ap) {frame : Octets} (haction : frame.getD 1 0 = gasInitialReq)
    (htoken : frame.getD 2 0 = x.dialogToken) (htoAp : s.toAp = [frame]) (htoSta : s.toSta = [])
    (hresults : s.results = []) (hap : ∀ d, ¬ Ours x s.ap d)
    (hsta : Asks x cb s.sta false false 0 []) (hkeeps : KeepsDialog conf x s .deliverToAp) :
    ∃ n, n < 2 * (response conf x).length + 5 ∧
      Phase conf x cb (sysExec conf x s .deliverToAp) n := by
  have hroom : needsDialog conf x = true → HasRoom s.ap x.sta :=
    hkeeps ⟨frame, by simp [htoAp], haction⟩
  have hop : hostapdRxPublicAction x frame =
      some (.initialReq x.sta x.dialogToken { request := x.request } false {}) := by
    simp only [hostapdRxPublicAction, haction, htoken, if_true]
  simp only [sysExec, htoAp, hop]
  rcases initialReq_local hs hap hroom with ⟨hno, n, hsent⟩ | ⟨hserving, delay, n, hdelay, hsent⟩
  · refine ⟨1, by omega, .answered rfl ?_ hresults hno hsta⟩
    refine (toSta_apStep hsent rfl).trans ?_
    simp [htoSta, response]
  · refine ⟨_, Nat.lt_succ_self _, .promised delay hdelay rfl ?_ hresults hserving hsta⟩
    refine (toSta_apStep hsent rfl).trans ?_
    simp [htoSta]

theorem asking_delivered (hs : HsInv s.ap) (hfrag : 0 < conf.gasFragLimit) {k : ℕ}
    (hk : k = 0 ∨ k * conf.gasFragLimit < (response conf x).length)
    (htoAp : s.toAp = [gasBuildComebackReq x.dialogToken]) (htoSta : s.toSta = [])
    (hresults : s.results = [])
    (hap : Serving x s.ap (response conf x) (k * conf.gasFragLimit) (UInt8.ofNat k))
    (hsta : Asks x cb s.sta true false k ((response conf x).take (k * conf.gasFragLimit))) :
    ∃ n, n < 2 * ((response conf x).length - k * conf.gasFragLimit) + 2 ∧
      Phase conf x cb (sysExec conf x s .deliverToAp) n := by
  have hop : hostapdRxPublicAction x (gasBuildComebackReq x.dialogToken) =
      some (.comebackReq x.sta x.dialogToken {}) := by
    simp [hostapdRxPublicAction, gasBuildComebackReq, gasInitialReq, gasComebackReq]
  simp only [sysExec, htoAp, hop]
  have hnext : (k + 1) * conf.gasFragLimit = k * conf.gasFragLimit + conf.gasFragLimit := by ring
  have hrest : ((response conf x).drop (k * conf.gasFragLimit)).length =
      (response conf x).length - k * conf.gasFragLimit := List.length_drop
  obtain ⟨hmore, hlast⟩ := comebackReq_serving conf hs hap
  by_cases hlen : conf.gasFragLimit < ((response conf x).drop (k * conf.gasFragLimit)).length
  · obtain ⟨hserving, n, hsent⟩ := hmore hlen
    refine ⟨2 * ((response conf x).length - (k + 1) * conf.gasFragLimit) + 3, by omega,
      .fragment k (by omega) rfl ?_ hresults ?_ hsta⟩
    · refine (toSta_apStep hsent rfl).trans ?_
      simp [htoSta]
    · rw [hnext, UInt8.ofNat_add]
      exact hserving
  · obtain ⟨hno, n, hsent⟩ := hlast hlen
    refine ⟨1, by omega, .last k hk rfl ?_ hresults hno hsta⟩
    refine (toSta_apStep hsent rfl).trans ?_
    simp [htoSta]

theorem answered_delivered (hkeyed : Keyed s.sta) (htoAp : s.toAp = [])
    (htoSta : s.toSta = [encode (.initialResp x.dialogToken 0 0 (response conf x))])
    (hresults : s.results = []) (hap : ∀ d, ¬ Ours x s.ap d)
    (hsta : Asks x cb s.sta false false 0 []) :
    Phase conf x cb (sysExec conf x s .deliverToSta) 0 := by
  obtain ⟨q, hget, hcb, hwait, -, -, -, hgot⟩ := hsta
  have hlen : (response conf x).length < 65536 :=
    (conf.payload x.request none).2.trans_lt (by decide)
  have hdoes := rx_answer hkeyed hget hwait hlen
  simp only [sysExec, htoSta]
  obtain ⟨hget', htoAp', hresults'⟩ := staStep_does
    (s := { s with toSta := [], turns := s.turns + 1 }) hdoes
  refine .completed ?_ rfl ?_ (by rw [staStep_ap]; exact hap) hget'
  · rw [htoAp']
    simp [htoAp]
  · rw [hresults', hgot, hcb]
    simp [hresults, success, Exchange.ofCallback]

theorem promised_delivered (hkeyed : Keyed s.sta) {delay : UInt16} (hdelay : delay ≠ 0)
    (htoAp : s.toAp = [])
    (htoSta : s.toSta = [encode (.initialResp x.dialogToken 0 delay [])])
    (hresults : s.results = []) (hap : Serving x s.ap (response conf x) 0 0)
    (hsta : Asks x cb s.sta false false 0 []) :
    Phase conf x cb (sysExec conf x s .deliverToSta) (2 * (response conf x).length + 3) := by
  obtain ⟨q, hget, hcb, hwait, -, -, hfrag, hgot⟩ := hsta
  have hdoes := rx_promise hkeyed hget hwait hdelay
  simp only [sysExec, htoSta]
  obtain ⟨hget', htoAp', hresults'⟩ := staStep_does
    (s := { s with toSta := [], turns := s.turns + 1 }) hdoes
  refine .waiting ?_ rfl ?_ (by rw [staStep_ap]; exact hap)
    ⟨_, hget', hcb, rfl, rfl, fun _ => rfl, hfrag, hgot⟩
  · rw [htoAp']
    simp [htoAp]
  · rw [hresults']
    simp [hresults]

theorem waiting_comeback (hkeyed : Keyed s.sta) (htoAp : s.toAp = []) (htoSta : s.toSta = [])
    (hresults : s.results = []) (hap : Serving x s.ap (response conf x) 0 0)
    (hsta : Asks x cb s.sta true true 0 []) :
    Phase conf x cb (sysExec conf x s .comeback) (2 * (response conf x).length + 2) := by
  obtain ⟨q, hget, hcb, hwait, harmed, hadv, hfrag, hgot⟩ := hsta
  have hdoes := comebackTimeout_does hkeyed hget
  simp only [sysExec, hget, harmed, if_true]
  obtain ⟨hget', htoAp', hresults'⟩ := staStep_does (s := { s with turns := s.turns + 1 }) hdoes
  have hphase : Phase conf x cb
      (staStep x { s with turns := s.turns + 1 } (.comebackTimeout {} q))
      (2 * ((response conf x).length - 0 * conf.gasFragLimit) + 2) := by
    refine .asking 0 (.inl rfl) ?_ htoSta ?_ ?_ ⟨_, hget', hcb, hwait, rfl, hadv, hfrag, ?_⟩
    · rw [htoAp']
      simp [htoAp]
    · rw [hresults']
      simp [hresults]
    · rw [Nat.zero_mul]
      exact hap
    · simpa using hgot
  simpa using hphase

section Fragments

variable (hkeyed : Keyed s.sta) (hbound : (response conf x).length ≤ 128 * conf.gasFragLimit) {k : ℕ}
include hkeyed hbound

omit hkeyed in
theorem fragId_lt (hk : k = 0 ∨ k * conf.gasFragLimit < (response conf x).length) :
    (UInt8.ofNat k).toNat = k ∧ k < 128 := by
  have hlt : k < 128 := by
    rcases hk with rfl | hk
    · omega
    · exact Nat.lt_of_mul_lt_mul_right (hk.trans_le hbound)
  refine ⟨?_, hlt⟩
  rw [UInt8.toNat_ofNat']
  omega

theorem fragment_delivered (hk : (k + 1) * conf.gasFragLimit < (response conf x).length)
    (htoAp : s.toAp = [])
    (htoSta : s.toSta = [encode (.comebackResp x.dialogToken 0 (UInt8.ofNat k) true
      (((response conf x).drop (k * conf.gasFragLimit)).take conf.gasFragLimit))])
    (hresults : s.results = [])
    (hap : Serving x s.ap (response conf x) ((k + 1) * conf.gasFragLimit) (UInt8.ofNat (k + 1)))
    (hsta : Asks x cb s.sta true false k ((response conf x).take (k * conf.gasFragLimit))) :
    Phase conf x cb (sysExec conf x s .deliverToSta)
      (2 * ((response conf x).length - (k + 1) * conf.gasFragLimit) + 2) := by
  have hnext : (k + 1) * conf.gasFragLimit = k * conf.gasFragLimit + conf.gasFragLimit := by ring
  obtain ⟨hof, hlt⟩ := fragId_lt hbound (.inr (show k * _ < _ by omega))
  obtain ⟨q, hget, hcb, hwait, harmed, hadv, hfrag, hgot⟩ := hsta
  have hmax := (conf.payload x.request none).2
  have hlen : (((response conf x).drop (k * conf.gasFragLimit)).take conf.gasFragLimit).length <
      65536 := by
    simp only [List.length_take, List.length_drop, response, payloadMax] at hmax ⊢
    omega
  have hdoes := rx_fragment hkeyed hget hwait (hadv rfl) hlen (by rw [hfrag, hof]; exact hlt)
  rw [hfrag] at hdoes
  simp only [sysExec, htoSta]
  obtain ⟨hget', htoAp', hresults'⟩ := staStep_does
    (s := { s with toSta := [], turns := s.turns + 1 }) hdoes
  refine .asking (k + 1) (.inr hk) ?_ rfl ?_ (by rw [staStep_ap]; exact hap)
    ⟨_, hget', hcb, hwait, harmed, hadv, ?_, ?_⟩
  · rw [htoAp']
    simp [htoAp]
  · rw [hresults']
    simp [hresults]
  · exact (UInt8.ofNat_add k 1).symm
  · show q.resp.getD [] ++ _ = _
    rw [hgot, hnext, List.take_add]

theorem last_delivered (hk : k = 0 ∨ k * conf.gasFragLimit < (response conf x).length)
    (htoAp : s.toAp = [])
    (htoSta : s.toSta = [encode (.comebackResp x.dialogToken 0 (UInt8.ofNat k) false
      ((response conf x).drop (k * conf.gasFragLimit)))])
    (hresults : s.results = []) (hap : ∀ d, ¬ Ours x s.ap d)
    (hsta : Asks x cb s.sta true false k ((response conf x).take (k * conf.gasFragLimit))) :
    Phase conf x cb (sysExec conf x s .deliverToSta) 0 := by
  obtain ⟨hof, hlt⟩ := fragId_lt hbound hk
  obtain ⟨q, hget, hcb, hwait, harmed, hadv, hfrag, hgot⟩ := hsta
  have hmax := (conf.payload x.request none).2
  have hlen : ((response conf x).drop (k * conf.gasFragLimit)).length < 65536 := by
    simp only [List.length_drop, response, payloadMax] at hmax ⊢
    omega
  have hdoes := rx_last hkeyed hget hwait (hadv rfl) hlen (by rw [hfrag, hof]; exact hlt)
  rw [hfrag] at hdoes
  simp only [sysExec, htoSta]
  obtain ⟨hget', htoAp', hresults'⟩ := staStep_does
    (s := { s with toSta := [], turns := s.turns + 1 }) hdoes
  refine .completed ?_ rfl ?_ (by rw [staStep_ap]; exact hap) hget'
  · rw [htoAp']
    simp [htoAp]
  · rw [hresults', hgot, hcb, List.take_append_drop]
    simp [hresults, success, Exchange.ofCallback]

end Fragments

-- What holds in every state of the exchange. The steps that were taken and those that are left are
-- bounded by the length of the response.
structure Inv (conf : HsConfig) (x : Exchange) (cb : κ) (s : Sys κ) : Prop where
  keyed : Keyed s.sta
  server : HsInv s.ap
  phase : ∃ n, Phase conf x cb s n ∧ s.turns + n ≤ 2 * (response conf x).length + 5

theorem deliverToAp_phase (hinv : Inv conf x cb s) (hfrag : 0 < conf.gasFragLimit)
    (hkeeps : KeepsDialog conf x s .deliverToAp) :
    ∃ n, Phase conf x cb (sysExec conf x s .deliverToAp) n ∧
      (sysExec conf x s .deliverToAp).turns + n ≤ 2 * (response conf x).length + 5 := by
  obtain ⟨n, hphase, hturns⟩ := hinv.phase
  have hidle (htoAp : s.toAp = []) : sysExec conf x s .deliverToAp = s := by
    simp only [sysExec, htoAp]
  have hone (hne : s.toAp ≠ []) : (sysExec conf x s .deliverToAp).turns = s.turns + 1 := by
    obtain ⟨frame, rest, hto⟩ := List.exists_cons_of_ne_nil hne
    simp only [sysExec, hto]
    split <;> rfl
  cases hphase with
  | requested frame haction htoken htoAp htoSta hresults hap hsta =>
    obtain ⟨m, hm, hphase'⟩ := requested_delivered hinv.server haction htoken htoAp htoSta hresults
      hap hsta hkeeps
    have := hone (by simp [htoAp])
    exact ⟨m, hphase', by omega⟩
  | asking k hk htoAp htoSta hresults hap hsta =>
    obtain ⟨m, hm, hphase'⟩ := asking_delivered hinv.server hfrag hk htoAp htoSta hresults hap hsta
    have := hone (by simp [htoAp])
    exact ⟨m, hphase', by omega⟩
  | answered htoAp | promised _ _ htoAp | waiting htoAp | fragment _ _ htoAp | last _ _ htoAp
  | completed htoAp =>
    rw [hidle htoAp]
    exact hinv.phase

theorem deliverToSta_phase (hinv : Inv conf x cb s)
    (hbound : (response conf x).length ≤ 128 * conf.gasFragLimit) :
    ∃ n, Phase conf x cb (sysExec conf x s .deliverToSta) n ∧
      (sysExec conf x s .deliverToSta).turns + n ≤ 2 * (response conf x).length + 5 := by
  obtain ⟨n, hphase, hturns⟩ := hinv.phase
  have hidle (htoSta : s.toSta = []) : sysExec conf x s .deliverToSta = s := by
    simp only [sysExec, htoSta]
  have hone {frame : Octets} (hto : s.toSta = [frame]) :
      (sysExec conf x s .deliverToSta).turns = s.turns + 1 := by
    simp only [sysExec, hto]
    rfl
  cases hphase with
  | answered htoAp htoSta hresults hap hsta =>
    have := hone htoSta
    exact ⟨0, answered_delivered hinv.keyed htoAp htoSta hresults hap hsta, by omega⟩
  | promised delay hdelay htoAp htoSta hresults hap hsta =>
    have := hone htoSta
    exact ⟨_, promised_delivered hinv.keyed hdelay htoAp htoSta hresults hap hsta, by omega⟩
  | fragment k hk htoAp htoSta hresults hap hsta =>
    have := hone htoSta
    exact ⟨_, fragment_delivered hinv.keyed hbound hk htoAp htoSta hresults hap hsta, by omega⟩
  | last k hk htoAp htoSta hresults hap hsta =>
    have := hone htoSta
    exact ⟨0, last_delivered hinv.keyed hbound hk htoAp htoSta hresults hap hsta, by omega⟩
  | requested _ _ _ _ htoSta | waiting _ htoSta | asking _ _ _ htoSta | completed _ htoSta =>
    rw [hidle htoSta]
    exact hinv.phase

theorem comeback_phase (hinv : Inv conf x cb s) :
    ∃ n, Phase conf x cb (sysExec conf x s .comeback) n ∧
      (sysExec conf x s .comeback).turns + n ≤ 2 * (response conf x).length + 5 := by
  obtain ⟨n, hphase, hturns⟩ := hinv.phase
  have hidle {back : Bool} {k : ℕ} {got : Octets} (hsta : Asks x cb s.sta back false k got) :
      sysExec conf x s .comeback = s := by
    obtain ⟨q, hget, -, -, harmed, -⟩ := hsta
    simp [sysExec, hget, harmed]
  cases hphase with
  | waiting htoAp htoSta hresults hap hsta =>
    have hone : (sysExec conf x s .comeback).turns = s.turns + 1 := by
      obtain ⟨q, hget, -, -, harmed, -⟩ := hsta
      simp only [sysExec, hget, harmed, if_true]
      rfl
    exact ⟨_, waiting_comeback hinv.keyed htoAp htoSta hresults hap hsta, by omega⟩
  | completed _ _ _ _ hsta =>
    have hsame : sysExec conf x s .comeback = s := by simp only [sysExec, hsta]
    rw [hsame]
    exact hinv.phase
  | requested _ _ _ _ _ _ _ hsta | answered _ _ _ _ hsta | promised _ _ _ _ _ _ hsta
  | asking _ _ _ _ _ _ hsta | fragment _ _ _ _ _ _ hsta | last _ _ _ _ _ _ hsta =>
    rw [hidle hsta]
    exact hinv.phase

theorem ap_phase {n : ℕ} (hinv : HsInv s.ap) (hphase : Phase conf x cb s n) {op : HsOp}
    (helse : apKey op ≠ some (x.sta, x.dialogToken)) (hkeeps : KeepsDialog conf x s (.ap op)) :
    Phase conf x cb (sysExec conf x s (.ap op)) n := by
  have hstep : Stepped conf s.ap op (hsExec conf s.ap op) := hsExec_stepped hinv op
  refine hphase.congr rfl ?_ rfl (fun d hd => hd.before hstep helse) (fun pos fragId hserving => ?_) rfl
  · simp only [sysExec, apStep, hsExec_frames hinv helse, List.map_nil, List.append_nil]
  · obtain ⟨d, dia, hours, -, -, -, -, honly⟩ := id hserving
    refine hserving.elsewhere hstep helse fun d' hd' => ?_
    rw [honly d' hd']
    exact hkeeps d (hs20DialogFind_eq_some hinv.table hours honly)

theorem sta_phase {n : ℕ} (hkeyed : Keyed s.sta) (hphase : Phase conf x cb s n) {op : Op κ}
    (helse : Elsewhere x s (.sta op)) : Phase conf x cb (sysExec conf x s (.sta op)) n := by
  obtain ⟨hget, hframes, hresults⟩ := exec_elsewhere hkeyed op helse.1 helse.2
  refine hphase.congr ?_ rfl ?_ (fun d hd => hd) (fun pos fragId hserving => hserving) hget
  · simp only [sysExec, staStep, hframes, List.append_nil]
  · simp only [sysExec, staStep, hresults, List.append_nil]

theorem Inv.exec (hinv : Inv conf x cb s) (hfrag : 0 < conf.gasFragLimit)
    (hbound : (response conf x).length ≤ 128 * conf.gasFragLimit) (op : SysOp κ)
    (helse : Elsewhere x s op) (hkeeps : KeepsDialog conf x s op) :
    Inv conf x cb (sysExec conf x s op) := by
  have hserver (o : HsOp) : HsInv (hsExec conf s.ap o) :=
    hinv.server.stepped (hsExec_stepped hinv.server o)
  cases op with
  | deliverToAp =>
    refine ⟨?_, ?_, deliverToAp_phase hinv hfrag hkeeps⟩
    · simp only [sysExec]
      repeat' split
      all_goals exact hinv.keyed
    · simp only [sysExec]
      repeat' split
      · exact hinv.server
      · exact hinv.server
      · exact hserver _
  | deliverToSta =>
    refine ⟨?_, ?_, deliverToSta_phase hinv hbound⟩
    · simp only [sysExec]
      split
      · exact hinv.keyed
      · exact hinv.keyed.exec (.rx {} x.ap _) trivial
    · simp only [sysExec]
      split <;> exact hinv.server
  | comeback =>
    refine ⟨?_, ?_, comeback_phase hinv⟩
    · simp only [sysExec]
      split
      · exact hinv.keyed
      rename_i q hget
      split
      · rename_i harmed
        exact hinv.keyed.exec (.comebackTimeout {} q) ⟨(gasQueryGetPending_some hget).1, harmed⟩
      · exact hinv.keyed
    · simp only [sysExec]
      repeat' split
      all_goals exact hinv.server
  | ap o =>
    obtain ⟨n, hphase, hturns⟩ := hinv.phase
    exact ⟨hinv.keyed, hserver o, n, ap_phase hinv.server hphase helse hkeeps, hturns⟩
  | sta o =>
    obtain ⟨n, hphase, hturns⟩ := hinv.phase
    exact ⟨hinv.keyed.exec o helse.1, hinv.server, n, sta_phase hinv.keyed hphase helse, hturns⟩

theorem gasQueryReq_out {g : Gas κ} {dst : Addr} {token : UInt8}
    (htoken : freeDialogToken g dst = some token) (freq : ℤ) {req : Octets} (hlen : ¬ req.length < 3)
    (cb : κ) :
    (gasQueryReq {} g dst freq req cb).2.out =
      g.out ++ [.sendAction dst freq (req.set 2 token)] := by
  simp only [gasQueryReq, hlen, if_false, htoken, Bool.not_true, Bool.false_eq_true]
  rfl

theorem Inv.start {ap : HsAp} {sta : Gas κ} {freq : ℤ} {req : Octets} (hap : HsInv ap)
    (hsta : Keyed sta) (hnone : hs20DialogFind ap x.sta x.dialogToken = none)
    (hreq : req.getD 1 0 = gasInitialReq)
    (htoken : (gasQueryReq {} sta x.ap freq req cb).1 = x.dialogToken.toNat) :
    Inv conf x cb (Sys.start x ap sta freq req cb) := by
  refine ⟨hsta.exec (.req {} x.ap freq req cb) trivial, hap, _, ?_, (Nat.zero_add _).le⟩
  have hrequested := gasQueryReq_requested hsta.toNumbered {} x.ap freq req cb
  generalize hr : gasQueryReq {} sta x.ap freq req cb = r at hrequested htoken
  cases hrequested with
  | refused | unsent => omega
  | accepted token g' hlen hfree halloc htx hpending =>
    obtain rfl : token = x.dialogToken := UInt8.toNat_inj.mp (by omega)
    have hout := gasQueryReq_out hfree freq hlen cb
    have hset : (req.set 2 x.dialogToken).getD 2 0 = x.dialogToken := by
      have h2 : 2 < req.length := by omega
      simp [h2]
    have hget : gasQueryGetPending (Sys.start x ap sta freq req cb).sta x.ap x.dialogToken =
        some { newQuery {} sta x.ap freq x.dialogToken cb with timeoutArmed := true } := by
      simp [Sys.start, staStep, GasQuery.exec, hr, gasQueryGetPending, hpending, newQuery]
    refine .requested (req.set 2 x.dialogToken) (by simpa using hreq) hset ?_ rfl rfl
      ((hs20DialogFind_eq_none hap.table).mp hnone) ⟨_, hget, rfl, rfl, rfl, ?_, rfl, rfl⟩
    · simp only [Sys.start, staStep, GasQuery.exec, hout, List.drop_left]
      have hours : x.ofSta (.sendAction x.ap freq (req.set 2 x.dialogToken)) =
          some (req.set 2 x.dialogToken) := if_pos ⟨rfl, hset⟩
      simp [hours]
    · rintro ⟨⟩

-- For every response of at most 128 fragments, and whatever is done for other stations and tokens: as
-- long as the access point finds room for the dialog and keeps it, the exchange takes a bounded number of
-- steps, and when nothing is left to deliver it has completed.
theorem gas_exchange_completes {ap : HsAp} {sta : Gas κ} {freq : ℤ} {req : Octets} (bss : BssConfig)
    (hap : Runs (hsExec conf) (fun _ _ => True) (HsAp.initial bss) ap)
    (hsta : Reach (fun _ _ => True) sta)
    (hnone : hs20DialogFind ap x.sta x.dialogToken = none) (hreq : req.getD 1 0 = gasInitialReq)
    (htoken : (gasQueryReq {} sta x.ap freq req cb).1 = x.dialogToken.toNat)
    (hfrag : 1 ≤ conf.gasFragLimit)
    (hbound : (conf.payload x.request none).1.length ≤ 128 * conf.gasFragLimit)
    (hrun : Runs (sysExec conf x) (fun s op => Elsewhere x s op ∧ KeepsDialog conf x s op)
      (Sys.start x ap sta freq req cb) s) :
    s.turns ≤ 2 * (conf.payload x.request none).1.length + 5 ∧
      (Idle x s → Completed conf x cb s) := by
  have hinv : Inv conf x cb s := by
    refine hrun.rule ?_ fun s op hs hok => hs.exec hfrag hbound op hok.1 hok.2
    exact .start (runs_hsInv (HsInv.initial bss) hap) (reach_keyed hsta) hnone hreq htoken
  obtain ⟨n, hphase, hturns⟩ := hinv.phase
  refine ⟨(Nat.le_add_right _ _).trans hturns, fun hidle => ?_⟩
  obtain ⟨hidleAp, hidleSta, harmed⟩ := hidle
  cases hphase with
  | requested _ _ _ htoAp | asking _ _ htoAp =>
    rw [hidleAp] at htoAp
    cases htoAp
  | answered _ htoSta | promised _ _ _ htoSta | fragment _ _ _ htoSta | last _ _ _ htoSta =>
    rw [hidleSta] at htoSta
    cases htoSta
  | waiting _ _ _ _ hsta =>
    obtain ⟨q, hget, -, -, harm, -⟩ := hsta
    rw [harmed q hget] at harm
    cases harm
  | completed _ _ hresults hap hsta =>
    exact ⟨hresults, hsta, (hs20DialogFind_eq_none hinv.server.table).mpr hap⟩

def sampleExchange : Exchange where
  ap := 0x020000000001
  sta := sampleStation
  dialogToken := 0
  request := 1

def sampleStart : Sys Unit := Sys.start sampleExchange (HsAp.initial {}) {} 2412 [4, 10, 0] ()

def sampleSteps : List (SysOp Unit) :=
  [.deliverToAp, .deliverToSta, .comeback, .deliverToAp, .deliverToSta, .deliverToAp, .deliverToSta]

def sampleEnd : Sys Unit := sampleSteps.foldl (sysExec sampleConf sampleExchange) sampleStart

theorem gas_exchange_completes_sample :
    sampleEnd.turns = 7 ∧ Completed sampleConf sampleExchange () sampleEnd := by
  have hfirst : HasRoom sampleStart.ap sampleExchange.sta := .inr (by decide)
  have hallowed : Allowed (sysExec sampleConf sampleExchange)
      (fun s op => Elsewhere sampleExchange s op ∧ KeepsDialog sampleConf sampleExchange s op)
      sampleStart sampleSteps := by
    refine ⟨⟨trivial, fun _ _ => hfirst⟩, ⟨trivial, trivial⟩, ⟨trivial, trivial⟩,
      ⟨trivial, fun hinit => absurd hinit ?_⟩, ⟨trivial, trivial⟩,
      ⟨trivial, fun hinit => absurd hinit ?_⟩, ⟨trivial, trivial⟩, trivial⟩
    · decide
    · decide
  have hrun : Runs (sysExec sampleConf sampleExchange)
      (fun s op => Elsewhere sampleExchange s op ∧ KeepsDialog sampleConf sampleExchange s op)
      (Sys.start sampleExchange (HsAp.initial {}) {} 2412 [4, 10, 0] ()) sampleEnd :=
    Runs.of_list sampleSteps hallowed
  have hdone := gas_exchange_completes {} .init .init (by decide) rfl (by decide)
    (by decide) (by decide) hrun
  refine ⟨by decide, hdone.2 ⟨by decide, by decide, fun q hq => ?_⟩⟩
  have hgone : gasQueryGetPending sampleEnd.sta sampleExchange.ap sampleExchange.dialogToken = none := by
    decide
  rw [hgone] at hq
  cases hq

def crowdedSteps : List (SysOp Unit) :=
  (List.range 8).map (fun i =>
    .ap (.initialReq sampleStation (UInt8.ofNat (i + 1)) { request := 1 } false {})) ++ [.deliverToAp]

def crowdedEnd : Sys Unit := crowdedSteps.foldl (sysExec sampleConf sampleExchange) sampleStart

-- There is no slot left for the dialog, and the access point does not answer.
theorem gas_exchange_no_room :
    Runs (sysExec sampleConf sampleExchange) (Elsewhere sampleExchange) sampleStart crowdedEnd ∧
      Idle sampleExchange crowdedEnd ∧ ¬ Completed sampleConf sampleExchange () crowdedEnd := by
  have hallowed : Allowed (sysExec sampleConf sampleExchange) (Elsewhere sampleExchange)
      sampleStart crowdedSteps := by
    refine ⟨?_, ?_, ?_, ?_, ?_, ?_, ?_, ?_, trivial, trivial⟩ <;> (show apKey _ ≠ _; decide)
  refine ⟨Runs.of_list crowdedSteps hallowed, ⟨by decide, by decide, ?_⟩, ?_⟩
  · have harmed : (gasQueryGetPending crowdedEnd.sta sampleExchange.ap
        sampleExchange.dialogToken).map Query.comebackArmed = some false := by decide
    intro q hq
    rw [hq] at harmed
    exact Option.some.inj harmed
  · intro hcompleted
    have hnone : crowdedEnd.results = [] := by decide
    rw [hcompleted.1] at hnone
    cases hnone

end WpaSupplicant.GasExchange
