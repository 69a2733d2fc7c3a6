import WpaSupplicant.Interworking
import WpaSupplicant.Bss.Theorems
import WpaSupplicant.GasQuery.Theorems

namespace WpaSupplicant.Interworking

open Bss GasQuery

variable {t t' t1 : Table} {w w' : Wpa} {env : Env} {dst : Addr}

-- What a response does to the table: the BSS that is found for the peer gets new ANQP data and is
-- marked as fetched; nothing else changes.
structure Annotated (dst : Addr) (t t' : Table) : Prop where
  eq : t' = { t with heap := t'.heap }
  others : ∀ p, wpaBssGetBssid t dst ≠ some p → t'.heap p = t.heap p
  self : ∀ p, ∃ anqp fetched, ((t.heap p).fetched = true → fetched = true) ∧
    t'.heap p = { t.heap p with anqp := anqp, fetched := fetched }

theorem Annotated.refl (dst : Addr) (t : Table) : Annotated dst t t :=
  ⟨rfl, fun _ _ => rfl, fun p => ⟨(t.heap p).anqp, (t.heap p).fetched, id, rfl⟩⟩

theorem Annotated.lookup (h : Annotated dst t t') (bssid : Addr) :
    wpaBssGetBssid t' bssid = wpaBssGetBssid t bssid := by
  have hbssid (p : Ptr) : (t'.heap p).bssid = (t.heap p).bssid := by
    obtain ⟨anqp, fetched, -, hheap⟩ := h.self p
    rw [hheap]
  rw [h.eq]
  unfold wpaBssGetBssid wpaSupplicantFilterBssidMatch
  simp only [hbssid]

theorem Annotated.trans (h : Annotated dst t t1) (h' : Annotated dst t1 t') :
    Annotated dst t t' := by
  refine ⟨?_, ?_, ?_⟩
  · rw [h'.eq, h.eq]
  · intro p hp
    rw [h'.others p (by rwa [h.lookup]), h.others p hp]
  · intro p
    obtain ⟨anqp, fetched, hmono, hheap⟩ := h.self p
    obtain ⟨anqp', fetched', hmono', hheap'⟩ := h'.self p
    refine ⟨anqp', fetched', fun hf => hmono' ?_, ?_⟩
    · rw [hheap]
      exact hmono hf
    · rw [hheap', hheap]

theorem Annotated.set {p : Ptr} (hp : wpaBssGetBssid t dst = some p) (anqp : Anqp) (fetched : Bool)
    (hmono : (t.heap p).fetched = true → fetched = true) :
    Annotated dst t (t.set p { t.heap p with anqp := anqp, fetched := fetched }) := by
  refine ⟨rfl, ?_, ?_⟩
  · intro q hq
    have hne : q ≠ p := by
      rintro rfl
      exact hq hp
    simp [Table.set, hne]
  · intro q
    by_cases hqp : q = p
    · subst hqp
      exact ⟨anqp, fetched, hmono, by simp [Table.set]⟩
    · exact ⟨(t.heap q).anqp, (t.heap q).fetched, id, by simp [Table.set, hqp]⟩

theorem store_annotated (t : Table) (sa : Addr) (put : Anqp → Anqp) :
    Annotated sa t (store t sa put) := by
  unfold store
  split
  · rename_i p hp
    exact .set hp _ _ id
  · exact .refl sa t

theorem Annotated.ite {c : Prop} [Decidable c] (h : Annotated dst t t1) (h' : Annotated dst t t') :
    Annotated dst t (if c then t1 else t') := by
  split
  · exact h
  · exact h'

theorem hs20ParseRxHs20AnqpResp_annotated (alloc : Bool) (t : Table) (sa : Addr) (data : Octets) :
    Annotated sa t (hs20ParseRxHs20AnqpResp alloc t sa data) := by
  unfold hs20ParseRxHs20AnqpResp
  cases data with
  | nil => exact .refl sa t
  | cons subtype data =>
    refine .ite (store_annotated t sa _) ?_
    refine .ite (store_annotated t sa _) ?_
    exact .ite (store_annotated t sa _) (.refl sa t)

theorem interworkingParseRxAnqpResp_annotated (alloc : Bool) (t : Table) (sa : Addr) (infoId : ℕ)
    (data : Octets) : Annotated sa t (interworkingParseRxAnqpResp alloc t sa infoId data) := by
  unfold interworkingParseRxAnqpResp
  refine .ite (store_annotated t sa _) ?_
  refine .ite (store_annotated t sa _) ?_
  refine .ite (store_annotated t sa _) ?_
  refine .ite (store_annotated t sa _) ?_
  refine .ite (store_annotated t sa _) ?_
  refine .ite (store_annotated t sa _) ?_
  refine .ite (store_annotated t sa _) ?_
  -- the vendor-specific element
  refine .ite ?_ (.refl sa t)
  refine .ite (.refl sa t) ?_
  refine .ite (.refl sa t) ?_
  exact .ite (hs20ParseRxHs20AnqpResp_annotated alloc t sa _) (.refl sa t)

theorem parseResp_annotated (copyAlloc : ℕ → Bool) (dst : Addr) (fuel : ℕ) (resp : Octets)
    (t : Table) : Annotated dst t (parseResp copyAlloc dst fuel resp t) := by
  induction fuel generalizing resp t with
  | zero => exact .refl dst t
  | succ fuel ih =>
    rw [parseResp]
    dsimp only
    split
    · exact .refl dst t
    split
    · exact .refl dst t
    · exact (interworkingParseRxAnqpResp_annotated _ t dst _ _).trans (ih _ _)

-- A response that does not follow a null pointer annotates the table and changes nothing else.
theorem anqpRespCb_annotated {c : Callback Cb} (h : anqpRespCb env w c = some w') :
    ∃ t' out, Annotated c.dst w.table t' ∧ w' = { w with table := t', out := out } := by
  unfold anqpRespCb at h
  split at h
  · obtain rfl := Option.some.inj h
    exact ⟨w.table, w.out, .refl _ _, rfl⟩
  split at h
  · cases h
  split at h
  · obtain rfl := Option.some.inj h
    exact ⟨w.table, w.out, .refl _ _, rfl⟩
  split at h
  · cases h
  rename_i resp _
  dsimp only at h
  split at h
  · cases h
  rename_i p hp
  obtain rfl := Option.some.inj h
  have hparse := parseResp_annotated env.copyAlloc c.dst resp.length resp w.table
  exact ⟨_, _, hparse.trans (.set hp _ true fun _ => rfl), rfl⟩

theorem Annotated.touched (h : Annotated dst t t') : Touched t t' := by
  refine ⟨h.eq, fun p => ?_⟩
  obtain ⟨anqp, fetched, -, hheap⟩ := h.self p
  rw [hheap]
  rfl

theorem gasEvent_outcome (h : Numbered w.gas) (ev : GasEvent)
    (hpromised : Promised w (.gas env ev)) :
    gasEvent env.gas w.gas ev = (w.gas, none) ∨
      ∃ q ∈ w.gas.pending, Outcome w.gas q (gasEvent env.gas w.gas ev) := by
  cases ev with
  | rx sa data =>
    rcases gasQueryRx_outcome h env.gas sa data with hsame | ⟨q, hq, -, hout⟩
    · exact .inl hsame
    · exact .inr ⟨q, hq, hout⟩
  | timeout q => exact .inr ⟨q, hpromised.1, gasQueryDone_outcome w.gas q _⟩
  | comebackTimeout q =>
    exact .inr ⟨q, hpromised.1, gasQueryTxComebackTimeout_outcome h hpromised.1 env.gas⟩
  | cancel dst dialogToken =>
    rcases gasQueryCancel_outcome w.gas dst dialogToken with hsame | ⟨q, hq, -, hout⟩
    · exact .inl hsame
    · exact .inr ⟨q, hq, hout⟩

-- The query of a fetch is not built, or it is handed to the GAS client.
theorem interworkingAnqpSendReq_cases (h : Numbered w.gas) (env : Env) (bss : Entry) :
    ((interworkingAnqpSendReq env w bss).2 = w ∧
        ((isHs20 bss = true ∧ env.extraAlloc = false) ∨ env.bufAlloc = false)) ∨
      ∃ buf r, 3 ≤ buf.length ∧
        Requested env.req w.gas bss.bssid bss.freq buf .interworkingAnqpRespCb r ∧
        (interworkingAnqpSendReq env w bss).2 = { w with gas := r.2 } := by
  unfold interworkingAnqpSendReq
  by_cases hextra : (isHs20 bss && !env.extraAlloc) = true
  · rw [if_pos hextra]
    simp only [Bool.and_eq_true, Bool.not_eq_true'] at hextra
    exact .inl ⟨rfl, .inl hextra⟩
  rw [if_neg hextra]
  by_cases hbuf : env.bufAlloc = true
  · rw [anqpBuildReq, if_pos hbuf]
    refine .inr ⟨_, _, ?_, gasQueryReq_requested h env.req bss.bssid bss.freq _ _, rfl⟩
    simp [gasAnqpInitialReq]
  · rw [anqpBuildReq, if_neg hbuf]
    exact .inl ⟨rfl, .inr (by simpa using hbuf)⟩

theorem sendReq_cases (h : Numbered w.gas) (env : Env) (dst : Addr) (buf : Option Octets) :
    (sendReq env w dst buf).2 = w ∨
      ∃ freq req r, Requested env.req w.gas dst freq req .anqpRespCb r ∧
        (sendReq env w dst buf).2 = { w with gas := r.2 } := by
  unfold sendReq
  split
  · exact .inl rfl
  cases buf with
  | none => exact .inl rfl
  | some req =>
    exact .inr ⟨_, req, _, gasQueryReq_requested h env.req dst (queryFreq w dst) req _, rfl⟩

-- What `interworking_next_anqp_fetch` does
inductive Continues (env : Env) (w : Wpa) : Wpa → Prop where
  | idle (hidle : w.fetchAnqpInProgress = false) : Continues env w w
  | completed (networkSelect : Bool) (out : List Output) (hrun : w.fetchAnqpInProgress = true)
      (hnone : nextBss w.table = none) (hout : .anqpFetchCompleted ∈ out)
      (hselect : w.networkSelect = true → .selectNetwork ∈ out) :
      Continues env w
        { offer w with fetchAnqpInProgress := false, networkSelect := networkSelect, out := out }
  | unbuilt (p : Ptr) (hrun : w.fetchAnqpInProgress = true) (hp : nextBss w.table = some p)
      (hwhy : (isHs20 (w.table.heap p) = true ∧ env.extraAlloc = false) ∨ env.bufAlloc = false) :
      Continues env w (markTried (offer w) p)
  | asked (p : Ptr) (buf : Octets) (r : ℤ × Gas Cb) (hrun : w.fetchAnqpInProgress = true)
      (hp : nextBss w.table = some p) (hbuf : 3 ≤ buf.length)
      (hreq : Requested env.req w.gas (w.table.heap p).bssid (w.table.heap p).freq buf
        .interworkingAnqpRespCb r) :
      Continues env w { markTried (offer w) p with gas := r.2 }

theorem interworkingNextAnqpFetch_continues (h : Numbered w.gas) (env : Env) :
    Continues env w (interworkingNextAnqpFetch env w) := by
  unfold interworkingNextAnqpFetch
  by_cases hrun : w.fetchAnqpInProgress = true
  · simp only [hrun, Bool.not_true, Bool.false_eq_true, if_false]
    have hoffer : (offer w).table = w.table := rfl
    rw [hoffer]
    cases hp : nextBss w.table with
    | none =>
      dsimp only
      split
      · refine .completed false _ hrun hp ?_ ?_ <;> simp [Wpa.emit]
      rename_i hselect
      refine .completed _ _ hrun hp ?_ fun h => absurd h hselect
      simp
    | some p =>
      dsimp only
      -- the mark does not touch what the query is built from
      have hheap : (markTried (offer w) p).table.heap p =
          { w.table.heap p with flags := (w.table.heap p).flags ||| anqpFetchTried } := by
        simp [markTried, Wpa.emit, Table.set, hoffer]
      rw [hheap]
      rcases interworkingAnqpSendReq_cases (w := markTried (offer w) p) h env
        { w.table.heap p with flags := (w.table.heap p).flags ||| anqpFetchTried } with
        ⟨hsame, hwhy⟩ | ⟨buf, r, hbuf, hreq, hgas⟩
      · rw [hsame]
        exact .unbuilt p hrun hp hwhy
      · rw [hgas]
        exact .asked p buf r hrun hp hbuf hreq
  · simp only [Bool.not_eq_true] at hrun
    simp only [hrun, Bool.not_false, if_true]
    exact .idle hrun

theorem nextBss_some {t : Table} {p : Ptr} (hp : nextBss t = some p) :
    p ∈ t.bss ∧ eligible (t.heap p) = true ∧ tried (t.heap p) = false := by
  have hfound := List.find?_some hp
  simp only [Bool.and_eq_true, Bool.not_eq_true'] at hfound
  exact ⟨List.mem_of_find?_eq_some hp, hfound⟩

theorem markTried_heap (w : Wpa) (p : Ptr) :
    tried ((markTried w p).table.heap p) = true ∧
      ∀ q, q ≠ p → (markTried w p).table.heap q = w.table.heap q := by
  constructor
  · simp [markTried, Wpa.emit, Table.set, tried, anqpFetchTried]
  · intro q hne
    simp [markTried, Wpa.emit, Table.set, hne]

theorem markTried_touched (w : Wpa) (p : Ptr) : Touched w.table (markTried w p).table :=
  .set w.table p _ rfl

theorem Continues.touched (h : Continues env w w') : Touched w.table w'.table := by
  cases h with
  | idle => exact .refl _
  | completed => exact .refl _
  | unbuilt p => exact markTried_touched (offer w) p
  | asked p => exact markTried_touched (offer w) p

theorem Continues.numbered (h : Continues env w w') (hn : Numbered w.gas) : Numbered w'.gas := by
  cases h with
  | idle => exact hn
  | completed => exact hn
  | unbuilt p => exact hn
  | asked p buf r hrun hp hbuf hreq => exact hn.requested hreq

theorem clearTried_touched (t : Table) : Touched t (clearTried t) := by
  unfold clearTried
  generalize t.bss = l
  induction l generalizing t with
  | nil => exact .refl t
  | cons p l ih =>
    refine Touched.trans ?_ (ih _)
    exact .set t p _ rfl

section Step

-- The state in which an operation calls `interworking_next_anqp_fetch`, if it does
inductive Calls (w : Wpa) : Op → Wpa → Prop where
  | fetchAnqp (env : Env) (hidle : w.fetchAnqpInProgress = false)
      (hselect : w.networkSelect = false) : Calls w (.fetchAnqp env) (beginFetch w)
  | scanResults (env : Env) (hhandler : w.scanResHandler = some .interworking) :
      Calls w (.scanResults env) (beginFetch { w with scanResHandler := none })
  | response (env : Env) (ev : GasEvent) (g : Gas Cb) (c : Callback Cb) (w1 : Wpa)
      (hevent : gasEvent env.gas w.gas ev = (g, some c)) (hcb : c.cb = .interworkingAnqpRespCb)
      (hresp : Interworking.anqpRespCb env { w with gas := g } c = some w1) :
      Calls w (.gas env ev) w1

-- What an operation does besides that
inductive Quiet (w : Wpa) : Op → Wpa → Prop where
  | bss (op : Bss.Op) : Quiet w (.bss op) { w with table := Bss.exec w.table op }
  | event (env : Env) (ev : GasEvent) (g : Gas Cb)
      (hevent : gasEvent env.gas w.gas ev = (g, none)) : Quiet w (.gas env ev) { w with gas := g }
  | response (env : Env) (ev : GasEvent) (g : Gas Cb) (c : Callback Cb) (w1 : Wpa)
      (hevent : gasEvent env.gas w.gas ev = (g, some c)) (hcb : c.cb = .anqpRespCb)
      (hresp : Interworking.anqpRespCb env { w with gas := g } c = some w1) :
      Quiet w (.gas env ev) w1
  | request (op : Op) (env : Env) (dst : Addr) (freq : ℤ) (req : Octets) (r : ℤ × Gas Cb)
      (hop : (∃ infoIds, op = .anqpSendReq env dst infoIds) ∨
        ∃ stypes payload, op = .hs20AnqpSendReq env dst stypes payload)
      (hreq : Requested env.req w.gas dst freq req .anqpRespCb r) :
      Quiet w op { w with gas := r.2 }
  | other (op : Op) (w' : Wpa) (htable : w'.table = w.table) (hgas : w'.gas = w.gas)
      (hrun : w'.fetchAnqpInProgress = true → w.fetchAnqpInProgress = true)
      (hqueried : w'.queried = w.queried) (hoffered : w'.offered = w.offered) : Quiet w op w'

def Op.answers : Op → Env
  | .gas env _ | .fetchAnqp env | .scanResults env | .anqpSendReq env _ _
  | .hs20AnqpSendReq env _ _ _ => env
  | _ => {}

theorem exec_cases (h : Numbered w.gas) (op : Op) (hexec : exec w op = some w') :
    (∃ w1, Calls w op w1 ∧ w' = interworkingNextAnqpFetch op.answers w1) ∨ Quiet w op w' := by
  cases op with
  | bss op =>
    obtain rfl := Option.some.inj hexec
    exact .inr (.bss op)
  | gas env ev =>
    rw [exec] at hexec
    cases hevent : gasEvent env.gas w.gas ev with
    | mk g cb =>
      rw [hevent] at hexec
      cases cb with
      | none =>
        obtain rfl := Option.some.inj hexec
        exact .inr (.event env ev g hevent)
      | some c =>
        dsimp only [runCallback] at hexec
        cases hcb : c.cb with
        | anqpRespCb =>
          rw [hcb] at hexec
          exact .inr (.response env ev g c w' hevent hcb hexec)
        | interworkingAnqpRespCb =>
          rw [hcb] at hexec
          obtain ⟨w1, hresp, rfl⟩ := Option.map_eq_some_iff.mp hexec
          exact .inl ⟨w1, .response env ev g c w1 hevent hcb hresp, rfl⟩
  | fetchAnqp env =>
    obtain rfl := Option.some.inj hexec
    unfold interworkingFetchAnqp
    by_cases hbusy : (w.fetchAnqpInProgress || w.networkSelect) = true
    · rw [if_pos hbusy]
      exact .inr (.other _ w rfl rfl id rfl rfl)
    rw [if_neg hbusy]
    simp only [Bool.or_eq_true, not_or, Bool.not_eq_true] at hbusy
    refine .inl ⟨_, .fetchAnqp env hbusy.1 hbusy.2, ?_⟩
    rw [interworkingStartFetchAnqp, ← hbusy.2]
    rfl
  | stopFetchAnqp =>
    obtain rfl := Option.some.inj hexec
    unfold interworkingStopFetchAnqp
    split
    · exact .inr (.other _ w rfl rfl id rfl rfl)
    · exact .inr (.other _ _ rfl rfl (fun h => nomatch h) rfl rfl)
  | select autoSelect =>
    obtain rfl := Option.some.inj hexec
    unfold interworkingSelect interworkingStopFetchAnqp
    split
    · exact .inr (.other _ _ rfl rfl id rfl rfl)
    · exact .inr (.other _ _ rfl rfl (fun h => nomatch h) rfl rfl)
  | scanResults env =>
    obtain rfl := Option.some.inj hexec
    unfold eventScanResults
    split
    · rename_i hhandler
      exact .inl ⟨_, .scanResults env hhandler, rfl⟩
    · exact .inr (.other _ _ rfl rfl id rfl rfl)
  | setScanResHandler handler hother | assoc freq =>
    obtain rfl := Option.some.inj hexec
    exact .inr (.other _ _ rfl rfl id rfl rfl)
  | anqpSendReq env dst infoIds =>
    obtain rfl := Option.some.inj hexec
    rcases sendReq_cases h env dst (anqpBuildReq env.bufAlloc infoIds []) with
      hsame | ⟨freq, req, r, hreq, hgas⟩
    · rw [anqpSendReq, hsame]
      exact .inr (.other _ w rfl rfl id rfl rfl)
    · rw [anqpSendReq, hgas]
      exact .inr (.request _ env dst freq req r (.inl ⟨infoIds, rfl⟩) hreq)
  | hs20AnqpSendReq env dst stypes payload =>
    obtain rfl := Option.some.inj hexec
    rcases sendReq_cases h env dst (hs20BuildAnqpReq env.bufAlloc stypes payload) with
      hsame | ⟨freq, req, r, hreq, hgas⟩
    · rw [hs20AnqpSendReq, hsame]
      exact .inr (.other _ w rfl rfl id rfl rfl)
    · rw [hs20AnqpSendReq, hgas]
      exact .inr (.request _ env dst freq req r (.inr ⟨stypes, payload, rfl⟩) hreq)

theorem exec_timeout {q : Query Cb} (hcb : q.cb = .interworkingAnqpRespCb) (env : Env) :
    exec w (.gas env (.timeout q)) =
      some (interworkingNextAnqpFetch env { w with gas := (gasQueryTimeout w.gas q).1 }) := by
  simp [exec, gasEvent, gasQueryTimeout, gasQueryDone, runCallback, hcb, interworkingAnqpRespCb,
    Interworking.anqpRespCb]

-- The invariants of the table and of the GAS client, which no operation breaks
structure Sound (limit : ℕ) (w : Wpa) : Prop where
  table : Inv limit w.table
  gas : Numbered w.gas

variable {limit : ℕ}

theorem gasEvent_numbered (h : Numbered w.gas) (ev : GasEvent)
    (hpromised : Promised w (.gas env ev)) : Numbered (gasEvent env.gas w.gas ev).1 := by
  rcases gasEvent_outcome h ev hpromised with hsame | ⟨q, -, hout⟩
  · rw [hsame]
    exact h
  · exact h.outcome hout

theorem Sound.response (h : Sound limit w) {ev : GasEvent} {g : Gas Cb} {c : Callback Cb}
    {w1 : Wpa} (hpromised : Promised w (.gas env ev))
    (hevent : gasEvent env.gas w.gas ev = (g, some c))
    (hresp : Interworking.anqpRespCb env { w with gas := g } c = some w1) : Sound limit w1 := by
  obtain ⟨t', out, hann, rfl⟩ := anqpRespCb_annotated hresp
  have hgas := gasEvent_numbered h.gas ev hpromised
  rw [hevent] at hgas
  exact ⟨h.table.touched hann.touched, hgas⟩

theorem Sound.calls (h : Sound limit w) {op : Op} {w1 : Wpa} (hpromised : Promised w op)
    (hcalls : Calls w op w1) : Sound limit w1 := by
  cases hcalls with
  | fetchAnqp env hidle hselect | scanResults env hhandler =>
    exact ⟨h.table.touched (clearTried_touched _), h.gas⟩
  | response env ev g c w1 hevent hcb hresp => exact h.response hpromised hevent hresp

theorem Sound.quiet (h : Sound limit w) {op : Op} (hpromised : Promised w op)
    (hquiet : Quiet w op w') : Sound limit w' := by
  cases hquiet with
  | bss op => exact ⟨exec_inv op h.table hpromised, h.gas⟩
  | event env ev g hevent =>
    have hgas := gasEvent_numbered h.gas ev hpromised
    rw [hevent] at hgas
    exact ⟨h.table, hgas⟩
  | response env ev g c w1 hevent hcb hresp => exact h.response hpromised hevent hresp
  | request op env dst freq req r hop hreq => exact ⟨h.table, h.gas.requested hreq⟩
  | other op w' htable hgas =>
    constructor
    · rw [htable]
      exact h.table
    · rw [hgas]
      exact h.gas

theorem exec_sound (h : Sound limit w) (op : Op) (hpromised : Promised w op)
    (hexec : exec w op = some w') : Sound limit w' := by
  rcases exec_cases h.gas op hexec with ⟨w1, hcalls, rfl⟩ | hquiet
  · have h1 := h.calls hpromised hcalls
    have hcont := interworkingNextAnqpFetch_continues h1.gas op.answers
    exact ⟨h1.table.touched hcont.touched, hcont.numbered h1.gas⟩
  · exact h.quiet hpromised hquiet

theorem reach_sound {ok : Wpa → Op → Prop} {start : Wpa} (hinit : start.Initial)
    (hreach : Reach ok start w) : Sound start.table.bssMaxCount w := by
  induction hreach with
  | init =>
    refine ⟨initial_inv hinit.1, ?_⟩
    rw [hinit.2.1]
    exact (Booked.init).toNumbered
  | step op _ hpromised _ hexec ih => exact exec_sound ih op hpromised hexec

end Step

theorem Reach.bss {ok : Wpa → Op → Prop} {start : Wpa} (hreach : Reach ok start w)
    (hok : ∀ t op, ok { w with table := t } (.bss op)) (ops : List Bss.Op)
    (hops : Bss.AllOk (fun _ _ => True) w.table ops) :
    Reach ok start { w with table := Bss.execAll w.table ops } := by
  induction ops generalizing w with
  | nil => exact hreach
  | cons op ops ih =>
    exact ih (w := { w with table := Bss.exec w.table op })
      (.step (.bss op) hreach hops.1 (hok w.table op) rfl) hok hops.2.2

def sampleAp (bssid : Addr) : ScanRes :=
  { bssid := bssid, ies := [0, 1, 65, 127, 4, 0, 0, 0, 0x80] }

def sampleScan : List Bss.Op := [.updateStart, .updateScanRes (some 1) ⟨10, 0⟩ (sampleAp 7)]

def sampleTable : Table := Bss.execAll {} sampleScan

theorem initial_empty : Wpa.Initial {} :=
  ⟨⟨rfl, rfl, rfl, rfl, rfl, rfl, rfl⟩, rfl, rfl, rfl, rfl⟩

theorem reach_sampleTable {ok : Wpa → Op → Prop} (hok : ∀ t op, ok { table := t } (.bss op)) :
    Reach ok {} { table := sampleTable } :=
  Reach.init.bss hok sampleScan (by decide)

end WpaSupplicant.Interworking
