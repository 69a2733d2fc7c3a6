import WpaSupplicant.GasExchange
import WpaSupplicant.GasQuery.Theorems

namespace WpaSupplicant.GasQuery

open GasExchange

variable {κ : Type} {g g' : Gas κ} {q q' : Query κ} {k : Addr × UInt8}

def Query.key (q : Query κ) : Addr × UInt8 := (q.addr, q.dialogToken)

structure Keyed (g : Gas κ) : Prop extends Numbered g where
  keys : (g.pending.map Query.key).Nodup

theorem Keyed.init : Keyed ({} : Gas κ) := ⟨⟨List.nodup_nil, by simp⟩, List.nodup_nil⟩

variable {r : Gas κ × Option (Callback κ)}

theorem Keyed.outcome (h : Keyed g) (hout : Outcome g q r) : Keyed r.1 := by
  refine ⟨h.toNumbered.outcome hout, ?_⟩
  cases hout with
  | kept g' hkept =>
    have hkeys : g'.pending.map Query.key = g.pending.map Query.key := hkept.map (·.2.1)
    rw [hkeys]
    exact h.keys
  | ended g1 g' c hkept hends =>
    have hkeys : g1.pending.map Query.key = g.pending.map Query.key := hkept.map (·.2.1)
    refine List.Nodup.sublist (hends.sublist.map Query.key) ?_
    rw [hkeys]
    exact h.keys

theorem Keyed.exec (h : Keyed g) (op : Op κ) (hfires : Fires g op) : Keyed (exec g op) := by
  cases op with
  | req a dst freq req cb =>
    have hreq := gasQueryReq_requested h.toNumbered a dst freq req cb
    refine ⟨h.toNumbered.requested hreq, ?_⟩
    simp only [GasQuery.exec]
    generalize gasQueryReq a g dst freq req cb = r at hreq
    cases hreq with
    | refused => exact h.keys
    | unsent token g' _ htoken _ _ hpending | accepted token g' _ htoken _ _ hpending =>
      rw [hpending, List.map_cons]
      exact List.nodup_cons.mpr ⟨freeDialogToken_free htoken, h.keys⟩
  | rx a sa data =>
    rcases gasQueryRx_outcome h.toNumbered a sa data with hsame | ⟨q, hq, -, hout⟩
    · simpa only [GasQuery.exec, hsame] using h
    · exact h.outcome hout
  | timeout q => exact h.outcome (gasQueryDone_outcome g q _)
  | comebackTimeout a q =>
    exact h.outcome (gasQueryTxComebackTimeout_outcome h.toNumbered hfires.1 a)
  | cancel dst dialogToken =>
    rcases gasQueryCancel_outcome g dst dialogToken with hsame | ⟨q, hq, -, hout⟩
    · simpa only [GasQuery.exec, hsame] using h
    · exact h.outcome hout

theorem reach_keyed {ok : Gas κ → Op κ → Prop} (hreach : Reach ok g) : Keyed g := by
  induction hreach with
  | init => exact .init
  | step op _ hfires _ ih => exact ih.exec op hfires

def Output.isFor (k : Addr × UInt8) : Output → Prop
  | .sendAction dst _ frame => (dst, frame.getD 2 0) = k
  | .sendActionDone => True

-- The queries with other keys are left alone, and the frames that go out are for the key.
structure Local (k : Addr × UInt8) (g g' : Gas κ) : Prop where
  others : g'.pending.filter (fun r => r.key ≠ k) = g.pending.filter fun r => r.key ≠ k
  out : ∃ l, g'.out = g.out ++ l ∧ ∀ o ∈ l, o.isFor k

theorem Local.refl (g : Gas κ) : Local k g g := ⟨rfl, [], by simp, by simp⟩

theorem Local.trans {g₁ g₂ : Gas κ} (h : Local k g g₁) (h' : Local k g₁ g₂) : Local k g g₂ := by
  obtain ⟨l, hl, hfor⟩ := h.out
  obtain ⟨l', hl', hfor'⟩ := h'.out
  refine ⟨h'.others.trans h.others, l ++ l', by rw [hl', hl, List.append_assoc], fun o ho => ?_⟩
  rcases List.mem_append.mp ho with ho | ho
  · exact hfor o ho
  · exact hfor' o ho

theorem Local.emit (g : Gas κ) {o : Output} (ho : o.isFor k) : Local k g (g.emit o) :=
  ⟨rfl, [o], rfl, by simpa using ho⟩

structure Holding (k : Addr × UInt8) (g : Gas κ) (q : Query κ) : Prop where
  key : q.key = k
  only : ∀ r ∈ g.pending, r.serial = q.serial → r.key = k

theorem Keyed.holding (h : Keyed g) (hq : q ∈ g.pending) : Holding q.key g q := by
  refine ⟨rfl, fun r hr hserial => ?_⟩
  rw [List.inj_on_of_nodup_map h.serials hr hq hserial]

theorem Holding.set (h : Holding k g q) (q' : Query κ) (hserial : q'.serial = q.serial)
    (hkey : q'.key = q.key) :
    Holding k (g.set q') q' ∧ Local k g (g.set q') := by
  have hk : q'.key = k := hkey.trans h.key
  refine ⟨⟨hk, fun r hr hrs => ?_⟩, ?_, [], by simp [Gas.set], by simp⟩
  · obtain ⟨r₀, hr₀, rfl⟩ := List.mem_map.mp hr
    split
    · exact hk
    rename_i hne
    rw [if_neg hne] at hrs
    exact absurd hrs hne
  · have honly := h.only
    rw [← hserial] at honly
    simp only [Gas.set]
    generalize g.pending = l at honly
    induction l with
    | nil => rfl
    | cons r l ih =>
      have ih := ih fun r hr => honly r (List.mem_cons_of_mem _ hr)
      simp only [List.map_cons]
      by_cases hrs : r.serial = q'.serial
      · have hrk := honly r List.mem_cons_self hrs
        simpa [hrs, hrk, hk] using ih
      · simp only [hrs, if_false, List.filter_cons, ih]

theorem Holding.emit {o : Output} (h : Holding k g q) : Holding k (g.emit o) q := ⟨h.key, h.only⟩

-- What an operation does is for the key, and so is its callback.
structure For (k : Addr × UInt8) (g : Gas κ) (r : Gas κ × Option (Callback κ)) : Prop where
  toLocal : Local k g r.1
  callback : ∀ c, r.2 = some c → (c.dst, c.dialogToken) = k

theorem For.none (h : Local k g g') : For k g (g', none) := ⟨h, fun c hc => by cases hc⟩

theorem For.after {g₁ : Gas κ} (h : Local k g g₁) (h' : For k g₁ r) :
    For k g r := ⟨h.trans h'.toLocal, h'.callback⟩

theorem gasQueryDone_for (h : Holding k g q) (result : Result) :
    For k g (gasQueryDone g q result) := by
  refine ⟨?_, fun c hc => ?_⟩
  · -- the query that is taken out of the list has the key
    have herase (l : List (Query κ)) (honly : ∀ r ∈ l, r.serial = q.serial → r.key = k) :
        (l.eraseP fun r => r.serial = q.serial).filter (fun r => r.key ≠ k) =
          l.filter fun r => r.key ≠ k := by
      induction l with
      | nil => rfl
      | cons r l ih =>
        have ih := ih fun r hr => honly r (List.mem_cons_of_mem _ hr)
        by_cases hrs : r.serial = q.serial
        · have hrk := honly r List.mem_cons_self hrs
          simp [hrs, hrk]
        · simp only [List.eraseP_cons, hrs, decide_false, Bool.cond_false, List.filter_cons, ih]
    unfold gasQueryDone
    by_cases htx : q.offchannelTxStarted = true
    · rw [if_pos htx]
      exact ⟨herase _ h.only, [.sendActionDone], rfl, by simp [Output.isFor]⟩
    · rw [if_neg htx]
      exact ⟨herase _ h.only, [], by simp, by simp⟩
  · cases hc
    exact h.key

theorem gasQueryTx_for (h : Holding k g q) (a : Answers) (req : Octets)
    (hreq : req.getD 2 0 = q.dialogToken) :
    Holding k (gasQueryTx a g q req).1 (gasQueryTx a g q req).2 ∧
      Local k g (gasQueryTx a g q req).1 := by
  have hout : (Output.sendAction q.addr q.freq req).isFor k := by
    rw [← h.key, Output.isFor, hreq, Query.key]
  unfold gasQueryTx
  dsimp only
  have hset (q' : Query κ) (hserial : q'.serial = q.serial) (hkey : q'.key = q.key) :=
    (h.emit (o := .sendAction q.addr q.freq req)).set q' hserial hkey
  split
  · obtain ⟨hhold, hlocal⟩ := hset { q with offchannelTxStarted := true } rfl rfl
    exact ⟨hhold, (Local.emit g hout).trans hlocal⟩
  · obtain ⟨hhold, hlocal⟩ := hset q rfl rfl
    exact ⟨hhold, (Local.emit g hout).trans hlocal⟩

theorem gasQueryTxComebackReq_for (h : Holding k g q) (a : Answers) :
    For k g (gasQueryTxComebackReq a g q) := by
  obtain ⟨hhold, hlocal⟩ := gasQueryTx_for h a (gasBuildComebackReq q.dialogToken) rfl
  unfold gasQueryTxComebackReq
  split
  · exact gasQueryDone_for h _
  dsimp only
  split
  · exact .after hlocal (gasQueryDone_for hhold _)
  · exact .none hlocal

theorem For.of_set (h : Holding k g q) (q' : Query κ) (hserial : q'.serial = q.serial)
    (hkey : q'.key = q.key) (hgo : Holding k (g.set q') q' → For k (g.set q') r) : For k g r := by
  obtain ⟨hhold, hlocal⟩ := h.set q' hserial hkey
  exact .after hlocal (hgo hhold)

theorem gasQueryDone_set_for (h : Holding k g q) (q' : Query κ) (result : Result)
    (hserial : q'.serial = q.serial) (hkey : q'.key = q.key) :
    For k g (gasQueryDone (g.set q') q' result) :=
  .of_set h q' hserial hkey fun hhold => gasQueryDone_for hhold result

theorem gasQueryTxComebackReqDelay_for (h : Holding k g q) (a : Answers) (q' : Query κ)
    (hserial : q'.serial = q.serial) (hkey : q'.key = q.key) :
    For k g (gasQueryTxComebackReqDelay a g q', none) :=
  .none (h.set { q' with comebackArmed := a.timer } hserial hkey).2

theorem gasQueryRxInitial_for (h : Holding k g q) (a : Answers) (r : Response) :
    For k g (gasQueryRxInitial a g q r) := by
  unfold gasQueryRxInitial
  split
  · exact gasQueryDone_for h _
  dsimp only
  split
  · exact gasQueryTxComebackReqDelay_for h a _ rfl rfl
  split
  · exact gasQueryDone_set_for h _ _ rfl rfl
  · exact gasQueryDone_set_for h _ _ rfl rfl

theorem gasQueryRxComeback_for (h : Holding k g q) (a : Answers) (r : Response) :
    For k g (gasQueryRxComeback a g q r) := by
  unfold gasQueryRxComeback
  split
  · exact gasQueryDone_for h _
  split
  · split
    · exact gasQueryDone_for h _
    · exact gasQueryTxComebackReqDelay_for h a _ rfl rfl
  split
  · exact gasQueryDone_for h _
  dsimp only
  split
  · exact gasQueryDone_set_for h _ _ rfl rfl
  split
  · refine .of_set h _ ?_ ?_ fun hhold => gasQueryTxComebackReq_for hhold a
    · rfl
    · rfl
  · exact gasQueryDone_set_for h _ _ rfl rfl

theorem gasQueryGetPending_some {addr : Addr} {dialogToken : UInt8}
    (hget : gasQueryGetPending g addr dialogToken = some q) :
    q ∈ g.pending ∧ q.key = (addr, dialogToken) := by
  have hfound := List.find?_some hget
  simp only [Bool.and_eq_true, decide_eq_true_eq] at hfound
  exact ⟨List.mem_of_find?_eq_some hget, Prod.ext hfound.1 hfound.2⟩

theorem gasQueryRx_for (h : Keyed g) (a : Answers) (sa : Addr) (data : Octets) :
    For (sa, data.getD 1 0) g (gasQueryRx a g sa data).2 := by
  have hsame : For (sa, data.getD 1 0) g (g, none) := .none (.refl g)
  unfold gasQueryRx
  dsimp only
  split
  · exact hsame
  split
  · exact hsame
  cases hget : gasQueryGetPending g sa (data.getD 1 0) with
  | none => exact hsame
  | some q =>
    obtain ⟨hq, hkey⟩ := gasQueryGetPending_some hget
    have hhold : Holding (sa, data.getD 1 0) g q := hkey ▸ h.holding hq
    dsimp only
    split
    · exact hsame
    split
    · exact hsame
    refine .of_set hhold { q with statusCode := getLE16 data 2 } rfl rfl fun hhold => ?_
    split
    · exact gasQueryDone_for hhold _
    split
    · exact .none (.refl _)
    split
    · exact gasQueryRxComeback_for hhold a _
    · exact gasQueryRxInitial_for hhold a _

theorem gasQueryReq_local (h : Keyed g) (a : Answers) {dst : Addr} (freq : ℤ) {req : Octets} (cb : κ)
    {token : UInt8} (htoken : freeDialogToken g dst = some token) :
    Local (dst, token) g (gasQueryReq a g dst freq req cb).2 := by
  unfold gasQueryReq
  by_cases hlen : req.length < 3
  · rw [if_pos hlen]
    exact .refl g
  rw [if_neg hlen, htoken]
  dsimp only
  split
  · exact .refl g
  let q : Query κ := { serial := g.next, addr := dst, dialogToken := token, freq := freq, cb := cb }
  let g₀ : Gas κ := { g with pending := q :: g.pending, next := g.next + 1 }
  have hlink : Local (dst, token) g g₀ := by
    refine ⟨?_, [], by simp [g₀], by simp⟩
    simp [g₀, q, Query.key]
  have hhold : Holding (dst, token) g₀ q := by
    refine ⟨rfl, fun r hr hserial => ?_⟩
    rcases List.mem_cons.mp hr with rfl | hr
    · rfl
    have hlt : r.serial < g.next := h.fresh _ (List.mem_map_of_mem hr)
    have heq : r.serial = g.next := hserial
    omega
  have hreq : (req.set 2 token).getD 2 0 = q.dialogToken := by
    have h2 : 2 < req.length := by omega
    simp [q, h2]
  obtain ⟨hhold', htx⟩ := gasQueryTx_for hhold a (req.set 2 token) hreq
  split
  · have hset := (hhold'.set { (gasQueryTx a g₀ q (req.set 2 token)).2 with freed := true } rfl rfl).2
    exact (hlink.trans htx).trans hset
  have hset := (hhold'.set { (gasQueryTx a g₀ q (req.set 2 token)).2 with timeoutArmed := a.timer }
    rfl rfl).2
  exact (hlink.trans htx).trans ⟨hset.others, hset.out⟩

theorem exec_for (h : Keyed g) (op : Op κ) (hfires : Fires g op) (hkey : staKey g op = some k) :
    For k g (exec g op, callback g op) := by
  cases op with
  | req a dst freq req cb =>
    obtain ⟨token, htoken, rfl⟩ := Option.map_eq_some_iff.mp hkey
    exact .none (gasQueryReq_local h a freq cb htoken)
  | rx a sa data =>
    cases hkey
    exact gasQueryRx_for h a sa data
  | timeout q =>
    cases hkey
    exact gasQueryDone_for (h.holding hfires.1) _
  | comebackTimeout a q =>
    cases hkey
    refine .of_set (h.holding hfires.1) _ ?_ ?_ fun hhold => gasQueryTxComebackReq_for hhold a
    · rfl
    · rfl
  | cancel dst dialogToken =>
    cases hkey
    simp only [exec, callback, gasQueryCancel]
    split
    · rename_i q hget
      obtain ⟨hq, hkey⟩ := gasQueryGetPending_some hget
      exact gasQueryDone_for (hkey ▸ h.holding hq) _
    · exact .none (.refl g)

section Elsewhere

variable {x : Exchange}

theorem Local.getPending (h : Local k g g') (hk : k ≠ (x.ap, x.dialogToken)) :
    gasQueryGetPending g' x.ap x.dialogToken = gasQueryGetPending g x.ap x.dialogToken := by
  have hfilter (l : List (Query κ)) :
      (l.filter fun r => r.key ≠ k).find? (fun r => r.addr = x.ap && r.dialogToken = x.dialogToken) =
        l.find? fun r => r.addr = x.ap && r.dialogToken = x.dialogToken := by
    rw [List.find?_filter]
    congr 1
    funext r
    by_cases hr : r.key = (x.ap, x.dialogToken)
    · have hrk : r.key ≠ k := fun h => hk (h.symm.trans hr)
      simp [hrk]
    have hno : (decide (r.addr = x.ap) && decide (r.dialogToken = x.dialogToken)) = false := by
      by_contra hyes
      simp only [Bool.not_eq_false, Bool.and_eq_true, decide_eq_true_eq] at hyes
      exact hr (Prod.ext hyes.1 hyes.2)
    simp [hno]
  rw [gasQueryGetPending, ← hfilter, h.others, hfilter, gasQueryGetPending]

theorem Local.frames (h : Local k g g') (hk : k ≠ (x.ap, x.dialogToken)) :
    (g'.out.drop g.out.length).filterMap x.ofSta = [] := by
  obtain ⟨l, hl, hfor⟩ := h.out
  rw [hl, List.drop_left, List.filterMap_eq_nil_iff]
  intro o ho
  cases o with
  | sendActionDone => rfl
  | sendAction dst freq frame =>
    have hfor : (dst, frame.getD 2 0) = k := hfor _ ho
    refine if_neg fun hours => hk ?_
    rw [← hfor, hours.1, hours.2]

theorem exec_elsewhere (h : Keyed g) (op : Op κ) (hfires : Fires g op)
    (hkey : staKey g op ≠ some (x.ap, x.dialogToken)) :
    gasQueryGetPending (exec g op) x.ap x.dialogToken =
        gasQueryGetPending g x.ap x.dialogToken ∧
      ((exec g op).out.drop g.out.length).filterMap x.ofSta = [] ∧
      (callback g op).toList.filter x.ofCallback = [] := by
  cases hk : staKey g op with
  | some k =>
    have hne : k ≠ (x.ap, x.dialogToken) := fun h => hkey (hk.trans (congrArg some h))
    have hfor := exec_for h op hfires hk
    refine ⟨hfor.toLocal.getPending hne, hfor.toLocal.frames hne, ?_⟩
    cases hc : callback g op with
    | none => rfl
    | some c =>
      have hck := hfor.callback c hc
      have hno : x.ofCallback c = false := by
        by_contra hyes
        simp only [Exchange.ofCallback, Bool.not_eq_false, Bool.and_eq_true,
          decide_eq_true_eq] at hyes
        exact hne (hck.symm.trans (Prod.ext hyes.1 hyes.2))
      simp [hno]
  | none =>
    -- a request for which there is no token
    cases op with
    | req a dst freq req cb =>
      have hnone : freeDialogToken g dst = none := Option.map_eq_none_iff.mp hk
      have hsame : exec g (.req a dst freq req cb) = g := by
        simp only [exec, gasQueryReq, hnone]
        split <;> rfl
      rw [hsame]
      exact ⟨rfl, by simp, rfl⟩
    | rx a sa data => cases hk
    | timeout q => cases hk
    | comebackTimeout a q => cases hk
    | cancel dst dialogToken => cases hk

end Elsewhere

section Own

variable {addr : Addr} {dialogToken : UInt8}

theorem getPending_set (h : Keyed g) (hget : gasQueryGetPending g addr dialogToken = some q)
    (q' : Query κ) (hcore : q'.core = q.core) :
    Keyed (g.set q') ∧ gasQueryGetPending (g.set q') addr dialogToken = some q' := by
  obtain ⟨hq, hkey⟩ := gasQueryGetPending_some hget
  obtain ⟨hkept, hmem⟩ := set_kept q' h.toNumbered hq hcore
  have hkeyed : Keyed (g.set q') := h.outcome (.kept (q := q) _ hkept)
  refine ⟨hkeyed, ?_⟩
  have hkey' : q'.key = (addr, dialogToken) := (congrArg (·.2.1) hcore).trans hkey
  have hsome : gasQueryGetPending (g.set q') addr dialogToken ≠ none := by
    intro hnone
    have hno := List.find?_eq_none.mp hnone q' hmem
    obtain ⟨ha, ht⟩ := Prod.mk.inj hkey'
    simp [ha, ht] at hno
  obtain ⟨r, hr⟩ := Option.ne_none_iff_exists'.mp hsome
  obtain ⟨hrmem, hrkey⟩ := gasQueryGetPending_some hr
  rw [hr, List.inj_on_of_nodup_map hkeyed.keys hrmem hmem (hrkey.trans hkey'.symm)]

theorem getPending_done (h : Keyed g) (hget : gasQueryGetPending g addr dialogToken = some q)
    (result : Result) :
    gasQueryGetPending (gasQueryDone g q result).1 addr dialogToken = none := by
  obtain ⟨hq, hkey⟩ := gasQueryGetPending_some hget
  obtain ⟨g₁, hkept, hends⟩ := gasQueryDone_ends g q result
  rw [gasQueryGetPending, List.find?_eq_none]
  intro r hr hfound
  simp only [Bool.and_eq_true, decide_eq_true_eq] at hfound
  have hrkey : r.key = q.key := (Prod.ext hfound.1 hfound.2 : r.key = (addr, dialogToken)).trans hkey.symm
  have hrq : r = q := by
    rw [gasQueryDone_pending] at hr
    exact List.inj_on_of_nodup_map h.keys (List.eraseP_subset hr) hq hrkey
  subst hrq
  have hserials := hends.serials
  have hmem : r.serial ∈ (gasQueryDone g r result).1.pending.map Query.serial :=
    List.mem_map_of_mem hr
  rw [hserials] at hmem
  have hnodup : (g₁.pending.map Query.serial).Nodup := hkept.serials ▸ h.serials
  exact hnodup.not_mem_erase hmem

theorem gasQueryRx_response (hget : gasQueryGetPending g addr dialogToken = some q) (a : Answers)
    {data : Octets} {action : UInt8} {r : Response} (hlen : 4 ≤ data.length)
    (haction : data.getD 0 0 = action) (htoken : data.getD 1 0 = dialogToken)
    (hstatus : getLE16 data 2 = statusSuccess)
    (hkind : action = if q.waitComeback then gasComebackResp else gasInitialResp)
    (hparse : parseResponse data = some r) :
    (gasQueryRx a g addr data).2 =
      if q.waitComeback then
        gasQueryRxComeback a (g.set { q with statusCode := statusSuccess })
          { q with statusCode := statusSuccess } r
      else
        gasQueryRxInitial a (g.set { q with statusCode := statusSuccess })
          { q with statusCode := statusSuccess } r := by
  simp only [gasQueryRx, haction, htoken, hget, hstatus, hparse, Nat.not_lt.mpr hlen, if_false]
  by_cases hwait : q.waitComeback = true
  · rw [if_pos hwait] at hkind
    simp [hwait, hkind, gasInitialResp, gasComebackResp]
  · rw [if_neg hwait] at hkind
    simp [hwait, hkind, gasInitialResp, gasComebackResp]

@[simp] theorem out_set : (g.set q').out = g.out := rfl

theorem gasQueryDone_frames (x : Exchange) (g : Gas κ) (q : Query κ) (result : Result) :
    ((gasQueryDone g q result).1.out.drop g.out.length).filterMap x.ofSta = [] := by
  unfold gasQueryDone
  by_cases htx : q.offchannelTxStarted = true
  · rw [if_pos htx]
    simp [Gas.emit, Exchange.ofSta]
  · rw [if_neg htx]
    simp

theorem gasQueryTxComebackReq_sent (h : Keyed g)
    (hget : gasQueryGetPending g addr dialogToken = some q) :
    gasQueryGetPending (gasQueryTxComebackReq {} g q).1 addr dialogToken =
        some { q with offchannelTxStarted := true } ∧
      (gasQueryTxComebackReq {} g q).1.out =
        g.out ++ [.sendAction q.addr q.freq (gasBuildComebackReq q.dialogToken)] ∧
      (gasQueryTxComebackReq {} g q).2 = none := by
  let g₁ := g.emit (.sendAction q.addr q.freq (gasBuildComebackReq q.dialogToken))
  have hkeyed : Keyed g₁ := h.outcome (.kept (q := q) _ (.emit g _))
  have hget₁ : gasQueryGetPending g₁ addr dialogToken = some q := hget
  have hset := (getPending_set hkeyed hget₁ { q with offchannelTxStarted := true } rfl).2
  simp only [gasQueryTxComebackReq, gasQueryTx]
  exact ⟨hset, rfl, rfl⟩

end Own

section Exchange

variable {x : Exchange} (h : Keyed g)
  (hget : gasQueryGetPending g x.ap x.dialogToken = some q)
include h hget

-- What an operation leaves of the query, what it sends to the peer, and its callback
def Does (x : Exchange) (g : Gas κ) (r : Gas κ × Option (Callback κ)) (q' : Option (Query κ))
    (frames : List Octets) (c : Option (Callback κ)) : Prop :=
  gasQueryGetPending r.1 x.ap x.dialogToken = q' ∧
    (r.1.out.drop g.out.length).filterMap x.ofSta = frames ∧ r.2 = c

theorem gasQueryDone_does (q' : Query κ) (hcore : q'.core = q.core) (result : Result) :
    Does x g (gasQueryDone (g.set q') q' result) none []
      (some ⟨q.cb, x.ap, x.dialogToken, result, q'.advProto, q'.resp, q'.statusCode⟩) := by
  obtain ⟨-, hkey⟩ := gasQueryGetPending_some hget
  obtain ⟨hkeyed, hget'⟩ := getPending_set h hget q' hcore
  have hkey' : q'.key = (x.ap, x.dialogToken) := (congrArg (·.2.1) hcore).trans hkey
  obtain ⟨haddr, htoken⟩ := Prod.mk.inj hkey'
  have hcb : q'.cb = q.cb := congrArg (·.2.2.1) hcore
  refine ⟨getPending_done hkeyed hget' result, ?_, ?_⟩
  · exact gasQueryDone_frames x (g.set q') q' result
  · simp only [gasQueryDone, haddr, htoken, hcb]

theorem gasQueryTxComebackReq_does (q' : Query κ) (hcore : q'.core = q.core) :
    Does x g (gasQueryTxComebackReq {} (g.set q') q') (some { q' with offchannelTxStarted := true })
      [gasBuildComebackReq x.dialogToken] none := by
  obtain ⟨-, hkey⟩ := gasQueryGetPending_some hget
  obtain ⟨hkeyed, hget'⟩ := getPending_set h hget q' hcore
  have hkey' : q'.key = (x.ap, x.dialogToken) := (congrArg (·.2.1) hcore).trans hkey
  obtain ⟨haddr, htoken⟩ := Prod.mk.inj hkey'
  obtain ⟨hpending, hout, hcb⟩ := gasQueryTxComebackReq_sent hkeyed hget'
  refine ⟨hpending, ?_, hcb⟩
  rw [hout, out_set, List.drop_left]
  simp [Exchange.ofSta, haddr, htoken, gasBuildComebackReq]

theorem gasQueryRxInitial_promise {r : Response} (hdelay : r.comebackDelay ≠ 0) :
    Does x g (gasQueryRxInitial {} g q r)
      (some { q with advProto := some r.advProto, waitComeback := true, comebackArmed := true })
      [] none := by
  simp only [gasQueryRxInitial, Bool.not_true, Bool.false_eq_true, if_false, hdelay, ne_eq,
    not_false_eq_true, if_true, gasQueryTxComebackReqDelay]
  refine ⟨(getPending_set h hget { q with
    advProto := some r.advProto, waitComeback := true, comebackArmed := true } rfl).2, ?_, rfl⟩
  simp

theorem gasQueryRxInitial_answer {r : Response} (hdelay : r.comebackDelay = 0) :
    Does x g (gasQueryRxInitial {} g q r) none []
      (some ⟨q.cb, x.ap, x.dialogToken, .success, some r.advProto,
        some (q.resp.getD [] ++ r.resp), q.statusCode⟩) := by
  simp only [gasQueryRxInitial, Bool.not_true, Bool.false_eq_true, if_false, hdelay, ne_eq,
    not_true_eq_false]
  exact gasQueryDone_does h hget
    { q with advProto := some r.advProto, resp := some (q.resp.getD [] ++ r.resp) } rfl _

variable {r : Response} (hadv : q.advProto = some r.advProto) (hdelay : r.comebackDelay = 0)
  (hfrag : r.fragId = q.nextFragId)
include hadv hdelay hfrag

theorem gasQueryRxComeback_more (hmore : r.moreFrags = true) :
    Does x g (gasQueryRxComeback {} g q r)
      (some { q with
        nextFragId := q.nextFragId + 1, resp := some (q.resp.getD [] ++ r.resp),
        offchannelTxStarted := true })
      [gasBuildComebackReq x.dialogToken] none := by
  rw [gasQueryRxComeback, if_neg (by simp [hadv]), if_neg (by simp [hdelay]),
    if_neg (by simp [hfrag])]
  dsimp only
  rw [if_neg (by simp), if_pos hmore]
  exact gasQueryTxComebackReq_does h hget
    { q with nextFragId := q.nextFragId + 1, resp := some (q.resp.getD [] ++ r.resp) } rfl

theorem gasQueryRxComeback_last (hmore : r.moreFrags = false) :
    Does x g (gasQueryRxComeback {} g q r) none []
      (some ⟨q.cb, x.ap, x.dialogToken, .success, some r.advProto,
        some (q.resp.getD [] ++ r.resp), q.statusCode⟩) := by
  rw [gasQueryRxComeback, if_neg (by simp [hadv]), if_neg (by simp [hdelay]),
    if_neg (by simp [hfrag])]
  dsimp only
  rw [if_neg (by simp), if_neg (by simp [hmore]), ← hadv]
  exact gasQueryDone_does h hget
    { q with nextFragId := q.nextFragId + 1, resp := some (q.resp.getD [] ++ r.resp) } rfl _

end Exchange

section Frames

variable {x : Exchange} (h : Keyed g)
  (hget : gasQueryGetPending g x.ap x.dialogToken = some q)
include h hget

def Query.accepted (q : Query κ) : Query κ := { q with statusCode := statusSuccess }

theorem getPending_accepted :
    Keyed (g.set q.accepted) ∧
      gasQueryGetPending (g.set q.accepted) x.ap x.dialogToken = some q.accepted :=
  getPending_set h hget q.accepted rfl

omit h in
theorem exec_initialResp (hwait : q.waitComeback = false) (delay : UInt16) {payload : Octets}
    (hlen : payload.length < 65536) :
    let op : Op κ := .rx {} x.ap ((encode (.initialResp x.dialogToken 0 delay payload)).drop 1)
    (exec g op, callback g op) =
      gasQueryRxInitial {} (g.set q.accepted) q.accepted
        ⟨0, false, delay.toNat, advProtoAnqp, payload⟩ := by
  obtain ⟨hhead, haction, htoken, hstatus⟩ := initialResp_head x.dialogToken 0 delay payload
  have hparse := parseResponse_initialResp x.dialogToken 0 delay hlen
  have hrx := gasQueryRx_response hget {} hhead haction htoken hstatus (by simp [hwait]) hparse
  rw [if_neg (by simp [hwait])] at hrx
  simp only [encode, exec, callback, Prod.mk.eta]
  exact hrx

omit h in
theorem exec_comebackResp (hwait : q.waitComeback = true) {fragId : UInt8} (hfrag : fragId.toNat < 128)
    (more : Bool) {payload : Octets} (hlen : payload.length < 65536) :
    let op : Op κ := .rx {} x.ap ((encode (.comebackResp x.dialogToken 0 fragId more payload)).drop 1)
    (exec g op, callback g op) =
      gasQueryRxComeback {} (g.set q.accepted) q.accepted
        ⟨fragId, more, 0, advProtoAnqp, payload⟩ := by
  obtain ⟨hhead, haction, htoken, hstatus⟩ := comebackResp_head x.dialogToken 0 fragId more 0
    payload
  have hparse := parseResponse_comebackResp x.dialogToken 0 0 more hlen hfrag
  have hrx := gasQueryRx_response hget {} hhead haction htoken hstatus (by simp [hwait]) hparse
  rw [if_pos hwait] at hrx
  simp only [encode, exec, callback, Prod.mk.eta]
  exact hrx

theorem rx_promise (hwait : q.waitComeback = false) {delay : UInt16} (hdelay : delay ≠ 0) :
    let op : Op κ := .rx {} x.ap ((encode (.initialResp x.dialogToken 0 delay [])).drop 1)
    Does x g (exec g op, callback g op)
      (some { q.accepted with
        advProto := some advProtoAnqp, waitComeback := true, comebackArmed := true }) [] none := by
  have hzero : delay.toNat ≠ 0 := fun hz => hdelay (UInt16.toNat_inj.mp hz)
  obtain ⟨hkeyed, hget₁⟩ := getPending_accepted h hget
  intro op
  rw [exec_initialResp hget hwait delay (by simp)]
  exact gasQueryRxInitial_promise hkeyed hget₁ hzero

theorem rx_answer (hwait : q.waitComeback = false) {payload : Octets}
    (hlen : payload.length < 65536) :
    let op : Op κ := .rx {} x.ap ((encode (.initialResp x.dialogToken 0 0 payload)).drop 1)
    Does x g (exec g op, callback g op) none []
      (some ⟨q.cb, x.ap, x.dialogToken, .success, some advProtoAnqp,
        some (q.resp.getD [] ++ payload), statusSuccess⟩) := by
  obtain ⟨hkeyed, hget₁⟩ := getPending_accepted h hget
  intro op
  rw [exec_initialResp hget hwait 0 hlen]
  exact gasQueryRxInitial_answer hkeyed hget₁ rfl

variable (hwait : q.waitComeback = true) (hadv : q.advProto = some advProtoAnqp) {payload : Octets}
  (hlen : payload.length < 65536) (hfrag : q.nextFragId.toNat < 128)
include hwait hadv hlen hfrag

theorem rx_fragment :
    let op : Op κ :=
      .rx {} x.ap ((encode (.comebackResp x.dialogToken 0 q.nextFragId true payload)).drop 1)
    Does x g (exec g op, callback g op)
      (some { q.accepted with
        nextFragId := q.nextFragId + 1, resp := some (q.resp.getD [] ++ payload),
        offchannelTxStarted := true })
      [gasBuildComebackReq x.dialogToken] none := by
  obtain ⟨hkeyed, hget₁⟩ := getPending_accepted h hget
  intro op
  rw [exec_comebackResp hget hwait hfrag true hlen]
  exact gasQueryRxComeback_more hkeyed hget₁ hadv rfl rfl rfl

theorem rx_last :
    let op : Op κ :=
      .rx {} x.ap ((encode (.comebackResp x.dialogToken 0 q.nextFragId false payload)).drop 1)
    Does x g (exec g op, callback g op) none []
      (some ⟨q.cb, x.ap, x.dialogToken, .success, some advProtoAnqp,
        some (q.resp.getD [] ++ payload), statusSuccess⟩) := by
  obtain ⟨hkeyed, hget₁⟩ := getPending_accepted h hget
  intro op
  rw [exec_comebackResp hget hwait hfrag false hlen]
  exact gasQueryRxComeback_last hkeyed hget₁ hadv rfl rfl rfl

omit hwait hadv hlen hfrag in
theorem comebackTimeout_does :
    Does x g (exec g (.comebackTimeout {} q), callback g (.comebackTimeout {} q))
      (some { q with comebackArmed := false, offchannelTxStarted := true })
      [gasBuildComebackReq x.dialogToken] none :=
  gasQueryTxComebackReq_does h hget { q with comebackArmed := false } rfl

end Frames

end WpaSupplicant.GasQuery
